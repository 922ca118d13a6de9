import MatrixIdentityAdmin.Spec.TokenCache

/-!
# The slot stays honest

A token is fetched and put into the slot under one and the same lock. So a
slot that was seen empty by the task that emptied it can only fill up with
tokens asked for later: whoever fills it got the lock after that. This is what
the others let a task count on, `CleanSince`, and the rest is bookkeeping of
each task's own steps.
-/

namespace MatrixIdentityAdmin.Ref.KeycloakClient

open MatrixIdentityAdmin.Lib

variable {ι : Type} {i j : ι} {n m : Nat}
  {log l : List (ι × Act)} {token : String} {cached : CachedToken}
  {s s' : Slot ι}

/-! ## Histories that grow -/

theorem RespondedAfter.mono (h : RespondedAfter n log token) :
    RespondedAfter n (log ++ l) token := by
  obtain ⟨j, resp, hin, htoken⟩ := h
  refine ⟨j, resp, ?_, htoken⟩
  rw [List.drop_append]
  exact List.mem_append_left _ hin

theorem RespondedAfter.weaken (h : RespondedAfter m log token) (hnm : n ≤ m) :
    RespondedAfter n log token := by
  obtain ⟨j, resp, hin, htoken⟩ := h
  exact ⟨j, resp, (List.drop_sublist_drop_left log hnm).subset hin, htoken⟩

/-! ## What a task may count on -/

/-- Any token in the slot arrived as the `n`-th event or later, and so will any
that another task is about to put there. -/
structure CleanSince (i : ι) (n : Nat) (s : Slot ι) : Prop where
  bound : n ≤ s.log.length
  cache : ∀ cached, s.cache = some cached →
    RespondedAfter n s.log cached.accessToken
  holder : ∀ j m, s.holder = some (j, m) → j ≠ i → n ≤ m

/-- The others neither act in the task's name, nor take or hand it the mutex,
nor touch the slot while it has the mutex, nor put an old token there. -/
structure Rely (i : ι) (s s' : Slot ι) : Prop where
  grows : ∃ l, s'.log = s.log ++ l ∧ ∀ p ∈ l, p.1 ≠ i
  holder : ∀ m, s.holder = some (i, m) ↔ s'.holder = some (i, m)
  cache : ∀ m, s.holder = some (i, m) → s'.cache = s.cache
  clean : ∀ n, CleanSince i n s → CleanSince i n s'

theorem Rely.refl : Rely i s s where
  grows := ⟨[], (List.append_nil _).symm, fun _ h => absurd h List.not_mem_nil⟩
  holder _ := Iff.rfl
  cache _ _ := rfl
  clean _ h := h

theorem Rely.trans {s'' : Slot ι} (h : Rely i s s') (h' : Rely i s' s'') :
    Rely i s s'' where
  grows := by
    obtain ⟨l, hl, hothers⟩ := h.grows
    obtain ⟨l', hl', hothers'⟩ := h'.grows
    refine ⟨l ++ l', by rw [hl', hl, List.append_assoc], fun p hp => ?_⟩
    rcases List.mem_append.1 hp with hp | hp
    · exact hothers p hp
    · exact hothers' p hp
  holder m := (h.holder m).trans (h'.holder m)
  cache m hm := (h'.cache m ((h.holder m).1 hm)).trans (h.cache m hm)
  clean n hn := h'.clean n (h.clean n hn)

/-! ## One step of a task -/

theorem log_step {c : TokenCall} {x : c.Answer} (hs : Slot.step i s c x s') :
    s'.log = s.log ++ [(i, ⟨c, x⟩)] := by
  cases c with
  | lock => rw [hs.2]; rfl
  | readCache => rw [hs.2]; rfl
  | now => rw [hs.2]; rfl
  | unlock => rw [show s' = _ from hs]; rfl
  | store token => rw [show s' = _ from hs]; rfl
  | requestToken => rw [show s' = _ from hs]; rfl
  | tokenResponse => rw [show s' = _ from hs]; rfl
  | send token => rw [show s' = _ from hs]; rfl
  | response => rw [show s' = _ from hs]; rfl

/-- The calls that leave the mutex and the slot alone. -/
def Quiet : TokenCall → Prop
  | .lock | .unlock | .store _ => False
  | _ => True

theorem quiet_step {c : TokenCall} {x : c.Answer} (hc : Quiet c)
    (hs : Slot.step i s c x s') : s'.holder = s.holder ∧ s'.cache = s.cache := by
  cases c with
  | lock => exact False.elim hc
  | unlock => exact False.elim hc
  | store token => exact False.elim hc
  | readCache => rw [hs.2]; exact ⟨rfl, rfl⟩
  | now => rw [hs.2]; exact ⟨rfl, rfl⟩
  | requestToken => rw [show s' = _ from hs]; exact ⟨rfl, rfl⟩
  | tokenResponse => rw [show s' = _ from hs]; exact ⟨rfl, rfl⟩
  | send token => rw [show s' = _ from hs]; exact ⟨rfl, rfl⟩
  | response => rw [show s' = _ from hs]; exact ⟨rfl, rfl⟩

/-- Cleanness does not mind that the history grows, as long as the slot and the
mutex do not change for the worse. -/
theorem CleanSince.step {e : ι × Act} (h : CleanSince i n s)
    (hlog : s'.log = s.log ++ [e])
    (hcache : ∀ cached, s'.cache = some cached → s.cache = some cached ∨
      RespondedAfter n s.log cached.accessToken)
    (hholder : ∀ j m, s'.holder = some (j, m) → j ≠ i →
      s.holder = some (j, m) ∨ n ≤ m) : CleanSince i n s' where
  bound := by
    rw [hlog, List.length_append]
    exact Nat.le_add_right_of_le h.bound
  cache cached hc := by
    rw [hlog]
    rcases hcache cached hc with hc | hc
    · exact (h.cache cached hc).mono
    · exact hc.mono
  holder j m hm hj := by
    rcases hholder j m hm hj with hm | hm
    · exact h.holder j m hm hj
    · exact hm

/-- As long as the slot stays as it is, the mutex decides. -/
theorem CleanSince.same_slot {e : ι × Act} (h : CleanSince i n s)
    (hlog : s'.log = s.log ++ [e]) (hcache : s'.cache = s.cache)
    (hholder : ∀ j m, s'.holder = some (j, m) → j ≠ i →
      s.holder = some (j, m) ∨ n ≤ m) : CleanSince i n s' :=
  h.step hlog (fun _ hcached => .inl (hcache ▸ hcached)) hholder

/-- What a step of one task is to another. -/
theorem Rely.step {j : ι} {e : Act} (hj : j ≠ i)
    (hlog : s'.log = s.log ++ [(i, e)])
    (hholder : ∀ m, s.holder = some (j, m) ↔ s'.holder = some (j, m))
    (hcache : ∀ m, s.holder = some (j, m) → s'.cache = s.cache)
    (hclean : ∀ n, CleanSince j n s → CleanSince j n s') : Rely j s s' where
  grows := by
    refine ⟨_, hlog, fun p hp => ?_⟩
    rw [List.mem_singleton.1 hp]
    exact Ne.symm hj
  holder := hholder
  cache := hcache
  clean := hclean

/-- Something else a task knows, that lasts. -/
structure Lasting (i : ι) (K : Slot ι → Prop) : Prop where
  rely : ∀ {s s'}, Rely i s s' → K s → K s'
  quiet : ∀ {s s'}, s'.holder = s.holder → s'.cache = s.cache →
    s.log <+: s'.log → K s → K s'

theorem lasting_true : Lasting i fun _ => True := ⟨fun _ h => h, fun _ _ _ h => h⟩

/-- What outlasts the growth of the history. -/
theorem lasting_log {K : List (ι × Act) → Prop}
    (hK : ∀ log l, K log → K (log ++ l)) : Lasting i fun s => K s.log where
  rely hr hk := by
    obtain ⟨l, hl, -⟩ := hr.grows
    rw [hl]
    exact hK _ l hk
  quiet _ _ hl hk := by
    obtain ⟨l, hl⟩ := hl
    rw [← hl]
    exact hK _ l hk

/-- The task has the mutex, and this is in the slot. -/
theorem lasting_cache {content : Option CachedToken} :
    Lasting i fun s => s.holder = some (i, m) ∧ s.cache = content where
  rely hr hk := ⟨(hr.holder m).1 hk.1, (hr.cache m hk.1).trans hk.2⟩
  quiet hh hc _ hk := ⟨hh.trans hk.1, hc.trans hk.2⟩

theorem lasting_responded :
    Lasting i fun s => RespondedAfter m s.log token :=
  lasting_log (K := (RespondedAfter m · token)) fun _ _ hk => hk.mono

/-! ## The discipline -/

variable [DecidableEq ι]

theorem own_append : own i (log ++ l) = own i log ++ own i l := by
  rw [own, own, own, List.filter_append, List.map_append]

theorem own_self {e : Act} : own i [(i, e)] = [e] := by
  simp [own]

theorem own_others (h : ∀ p ∈ l, p.1 ≠ i) : own i l = [] := by
  rw [own, List.map_eq_nil_iff, List.filter_eq_nil_iff]
  intro p hp
  simpa using h p hp

theorem sends_append : sends i (log ++ l) = sends i log + sends i l := by
  rw [sends, own_append, calls_append, List.countP_append]
  rfl

theorem Fetched.mono (h : Fetched log cached) : Fetched (log ++ l) cached := by
  obtain ⟨j, resp, now, hin, hcached⟩ := h
  refine ⟨j, resp, now, ?_, hcached⟩
  rw [own_append]
  exact hin.trans (List.prefix_append _ _).isInfix

theorem Rely.own_eq (h : Rely i s s') : own i s'.log = own i s.log := by
  obtain ⟨l, hl, hothers⟩ := h.grows
  rw [hl, own_append, own_others hothers, List.append_nil]

/-- What is in the slot was fetched, and nobody sent more than twice. -/
structure Honest (s : Slot ι) : Prop where
  fetched : ∀ cached, s.cache = some cached → Fetched s.log cached
  twice : ∀ i, sends i s.log ≤ 2

theorem release_cases (i : ι) (s : Slot ι) :
    s.release i = s ∨
      (∃ m, s.holder = some (i, m)) ∧ s.release i = { s with holder := none } := by
  rw [Slot.release]
  split
  · next j m hj =>
      split
      · next heq =>
          subst heq
          exact .inr ⟨⟨m, hj⟩, rfl⟩
      · exact .inl rfl
  · exact .inl rfl

theorem release_harmless (h : Honest s) :
    Honest (s.release i) ∧ ∀ j, j ≠ i → Rely j s (s.release i) := by
  rcases release_cases i s with heq | ⟨⟨m, hm⟩, heq⟩
  · rw [heq]
    exact ⟨h, fun _ _ => .refl⟩
  · rw [heq]
    refine ⟨⟨h.fetched, h.twice⟩, fun j hj => ⟨Rely.refl.grows, fun k => ?_,
      fun _ _ => rfl, fun n hn => ⟨hn.bound, hn.cache, nofun⟩⟩⟩
    rw [hm]
    simp [Ne.symm hj]

/-- How the tasks get along. -/
def discipline : Discipline (tasks (ι := ι)) where
  inv := Honest
  rely := Rely
  pre i s c := Gate i s.log c
  rely_refl _ _ := .refl
  rely_trans := .trans
  drop h hs := hs ▸ release_harmless h

theorem Honest.step {c : TokenCall} {x : c.Answer} (h : Honest s)
    (hlog : s'.log = s.log ++ [(i, ⟨c, x⟩)])
    (hcache : ∀ cached, s'.cache = some cached → s.cache = some cached ∨
      Fetched s'.log cached)
    (hsend : c.isSend = true → sends i s.log ≤ 1) : Honest s' where
  fetched cached hc := by
    rcases hcache cached hc with hc | hc
    · rw [hlog]
      exact (h.fetched cached hc).mono
    · exact hc
  twice j := by
    rw [hlog, sends_append]
    by_cases hj : j = i
    · subst hj
      cases hc : c.isSend with
      | true =>
          have hone : sends j [(j, (⟨c, x⟩ : Act))] = 1 := by
            simp [sends, own_self, hc]
          have := hsend hc
          omega
      | false =>
          have hzero : sends j [(j, (⟨c, x⟩ : Act))] = 0 := by
            simp [sends, own_self, hc]
          have := h.twice j
          omega
    · have hzero : sends j [(i, (⟨c, x⟩ : Act))] = 0 := by
        simp [sends, own, Ne.symm hj]
      have := h.twice j
      omega

/-! ## Where a task is -/

/-- What a task knows between two of its steps: the history goes on from
`base`, its own part of it is `h`, whether and since when it has the mutex,
and since when the slot is clean. -/
structure At (i : ι) (base : List (ι × Act)) (h : List Act) (held : Option Nat)
    (S : Nat → Prop) (s : Slot ι) : Prop where
  past : base <+: s.log
  acts : own i s.log = h
  mutex : ∀ m, s.holder = some (i, m) ↔ held = some m
  late : ∀ m, held = some m → m ≤ s.log.length
  clean : ∀ n, S n → CleanSince i n s

variable {base : List (ι × Act)} {h : List Act} {held : Option Nat}
  {S : Nat → Prop}

theorem At.rely (hat : At i base h held S s) (hr : Rely i s s') :
    At i base h held S s' where
  past := by
    obtain ⟨l, hl, -⟩ := hr.grows
    rw [hl]
    exact hat.past.trans (List.prefix_append _ _)
  acts := hr.own_eq.trans hat.acts
  mutex m := (hr.holder m).symm.trans (hat.mutex m)
  late m hm := by
    obtain ⟨l, hl, -⟩ := hr.grows
    rw [hl, List.length_append]
    exact Nat.le_add_right_of_le (hat.late m hm)
  clean n hn := hr.clean n (hat.clean n hn)

/-- A step of its own brings a task one further. -/
theorem At.step {held' : Option Nat} {S' : Nat → Prop} {c : TokenCall}
    {x : c.Answer} (hat : At i base h held S s)
    (hlog : s'.log = s.log ++ [(i, ⟨c, x⟩)])
    (hmutex : ∀ m, s'.holder = some (i, m) ↔ held' = some m)
    (hlate : ∀ m, held' = some m → m ≤ s.log.length)
    (hclean : ∀ n, S' n → CleanSince i n s') :
    At i base (h ++ [⟨c, x⟩]) held' S' s' where
  past := by
    rw [hlog]
    exact hat.past.trans (List.prefix_append _ _)
  acts := by rw [hlog, own_append, own_self, hat.acts]
  mutex := hmutex
  late m hm := by
    rw [hlog, List.length_append]
    exact Nat.le_add_right_of_le (hlate m hm)
  clean := hclean

theorem At.sends_eq (hat : At i base h held S s) :
    sends i s.log = (calls h).countP TokenCall.isSend := by
  rw [sends, hat.acts]

/-! ## The rules, one for each kind of call -/

section

variable {α : Type} {Q : α → Slot ι → Prop} {K : Slot ι → Prop}

theorem keeps_quiet {c : TokenCall} {k : c.Answer → Task α}
    (hK : Lasting i K) (hc : Quiet c) (hat : At i base h held S s) (hk : K s)
    (hgate : ∀ s₁, At i base h held S s₁ → K s₁ →
      Gate i s₁.log c ∧ (c.isSend = true → sends i s₁.log ≤ 1))
    (hnext : ∀ x s₁ s₂, Slot.step i s₁ c x s₂ → At i base h held S s₁ → K s₁ →
      At i base (h ++ [⟨c, x⟩]) held S s₂ → K s₂ →
      discipline.Keeps i (k x) s₂ Q) :
    discipline.Keeps i (Prog.call c k) s Q := by
  intro s₁ hinv hrely
  have hat₁ := hat.rely hrely
  have hk₁ := hK.rely hrely hk
  obtain ⟨hg, hsend⟩ := hgate s₁ hat₁ hk₁
  refine ⟨hg, fun x s₂ hs => ?_⟩
  have hlog := log_step hs
  obtain ⟨hholder, hcache⟩ := quiet_step hc hs
  have hclean : ∀ j n, CleanSince j n s₁ → CleanSince j n s₂ := by
    intro j n hn
    exact hn.same_slot hlog hcache fun l m hm _ => .inl (hholder ▸ hm)
  refine ⟨hinv.step hlog (fun cached hcached => .inl (hcache ▸ hcached)) hsend,
    fun j hj => .step hj hlog (fun m => by rw [hholder]) (fun _ _ => hcache)
      (hclean j), ?_⟩
  refine hnext x s₁ s₂ hs hat₁ hk₁ (hat₁.step hlog ?_ hat₁.late fun n hn =>
    hclean i n (hat₁.clean n hn)) (hK.quiet hholder hcache ?_ hk₁)
  · intro m
    rw [hholder]
    exact hat₁.mutex m
  · rw [hlog]
    exact List.prefix_append _ _

theorem keeps_lock {k : Unit → Task α} (hat : At i base h none S s)
    (hnext : ∀ m s₂, (∀ n, S n → n ≤ m) →
      At i base (h ++ [⟨.lock, ()⟩]) (some m) S s₂ →
      discipline.Keeps i (k ()) s₂ Q) :
    discipline.Keeps i (Prog.call .lock k) s Q := by
  intro s₁ hinv hrely
  have hat₁ := hat.rely hrely
  refine ⟨trivial, fun x s₂ hs => ?_⟩
  change Slot.step i s₁ .lock x s₂ at hs
  have hlog := log_step hs
  obtain ⟨hnone, hs⟩ := hs
  have hcache : s₂.cache = s₁.cache := by rw [hs]; rfl
  have hholder : s₂.holder = some (i, s₁.log.length) := by rw [hs]
  have hclean : ∀ j n, CleanSince j n s₁ → CleanSince j n s₂ := by
    intro j n hn
    refine hn.same_slot hlog hcache fun l m hm _ => ?_
    rw [hholder] at hm
    cases hm
    exact .inr hn.bound
  refine ⟨hinv.step hlog (fun cached hcached => .inl (hcache ▸ hcached)) nofun,
    fun j hj => .step hj hlog (fun m => ?_) (fun m hm => ?_) (hclean j), ?_⟩
  · rw [hnone, hholder]
    simp [Ne.symm hj]
  · rw [hnone] at hm
    cases hm
  · refine hnext s₁.log.length s₂ (fun n hn => (hat₁.clean n hn).bound)
      (hat₁.step hlog (fun m => ?_) (fun m hm => ?_) fun n hn =>
        hclean i n (hat₁.clean n hn))
    · rw [hholder]
      simp
    · cases hm
      exact Nat.le_refl _

theorem keeps_unlock {k : Unit → Task α} (hK : Lasting i K)
    (hat : At i base h (some m) S s) (hk : K s)
    (hnext : ∀ s₁ s₂, s₂.log = s₁.log ++ [(i, ⟨.unlock, ()⟩)] → Honest s₁ →
      At i base h (some m) S s₁ → K s₁ →
      At i base (h ++ [⟨.unlock, ()⟩]) none S s₂ →
      discipline.Keeps i (k ()) s₂ Q) :
    discipline.Keeps i (Prog.call .unlock k) s Q := by
  intro s₁ hinv hrely
  have hat₁ := hat.rely hrely
  have hk₁ := hK.rely hrely hk
  refine ⟨trivial, fun x s₂ hs => ?_⟩
  change Slot.step i s₁ .unlock x s₂ at hs
  have hlog := log_step hs
  have hcache : s₂.cache = s₁.cache := by rw [show s₂ = _ from hs]; rfl
  have hholder : s₂.holder = none := by rw [show s₂ = _ from hs]
  have hheld : s₁.holder = some (i, m) := (hat₁.mutex m).2 rfl
  have hclean : ∀ j n, CleanSince j n s₁ → CleanSince j n s₂ := by
    intro j n hn
    refine hn.same_slot hlog hcache fun l m hm _ => ?_
    rw [hholder] at hm
    cases hm
  refine ⟨hinv.step hlog (fun cached hcached => .inl (hcache ▸ hcached)) nofun,
    fun j hj => .step hj hlog (fun m' => ?_) (fun _ _ => hcache) (hclean j), ?_⟩
  · rw [hheld, hholder]
    simp [Ne.symm hj]
  · refine hnext s₁ s₂ hlog hinv hat₁ hk₁ (hat₁.step hlog (fun m' => ?_) nofun fun n hn =>
      hclean i n (hat₁.clean n hn))
    rw [hholder]
    simp

/-- What is put into the slot came while the task had the mutex. -/
theorem keeps_store {t : Option CachedToken} {T : Nat → Prop}
    {k : Unit → Task α} (hK : Lasting i K)
    (hat : At i base h (some m) S s) (hk : K s)
    (hfresh : ∀ s₁, At i base h (some m) S s₁ → K s₁ → ∀ cached, t = some cached →
      RespondedAfter m s₁.log cached.accessToken ∧
        Fetched (s₁.log ++ [(i, ⟨.store t, ()⟩)]) cached)
    (hT : ∀ n, T n → n ≤ base.length ∧ t = none ∨ S n ∧ n ≤ m)
    (hnext : ∀ s₂, At i base (h ++ [⟨.store t, ()⟩]) (some m) T s₂ → K s₂ →
      discipline.Keeps i (k ()) s₂ Q)
    (hK' : ∀ s₁ s₂, s₁.log <+: s₂.log → K s₁ → K s₂) :
    discipline.Keeps i (Prog.call (.store t) k) s Q := by
  intro s₁ hinv hrely
  have hat₁ := hat.rely hrely
  have hk₁ := hK.rely hrely hk
  refine ⟨trivial, fun x s₂ hs => ?_⟩
  change Slot.step i s₁ (.store t) x s₂ at hs
  have hlog := log_step hs
  have hcache : s₂.cache = t := by rw [show s₂ = _ from hs]
  have hholder : s₂.holder = s₁.holder := by rw [show s₂ = _ from hs]; rfl
  have hheld : s₁.holder = some (i, m) := (hat₁.mutex m).2 rfl
  have hnew := hfresh s₁ hat₁ hk₁
  refine ⟨hinv.step hlog (fun cached hcached => .inr ?_) nofun,
    fun j hj => .step hj hlog (fun m' => by rw [hholder]) (fun m' hm' => ?_)
      fun n hn => ?_, ?_⟩
  · rw [hlog]
    exact (hnew cached (hcache.symm.trans hcached)).2
  · rw [hheld] at hm'
    cases hm'
    exact absurd rfl hj
  · refine hn.step hlog (fun cached hcached => .inr ?_) fun l m' hm' _ => ?_
    · refine (hnew cached (hcache.symm.trans hcached)).1.weaken ?_
      exact hn.holder i m hheld (Ne.symm hj)
    · exact .inl (hholder ▸ hm')
  · refine hnext s₂ (hat₁.step hlog (fun m' => ?_) hat₁.late fun n hn => ?_)
      (hK' s₁ s₂ ?_ hk₁)
    · rw [hholder]
      exact hat₁.mutex m'
    · rcases hT n hn with ⟨hbound, rfl⟩ | ⟨hn, hnm⟩
      · refine ⟨?_, fun cached hcached => ?_, fun l m' hm' hl => ?_⟩
        · rw [hlog, List.length_append]
          exact Nat.le_add_right_of_le (Nat.le_trans hbound hat₁.past.length_le)
        · rw [hcache] at hcached
          cases hcached
        · rw [hholder, hheld] at hm'
          cases hm'
          exact absurd rfl hl
      · refine (hat₁.clean n hn).step hlog (fun cached hcached => .inr ?_)
          fun l m' hm' _ => .inl (hholder ▸ hm')
        exact (hnew cached (hcache.symm.trans hcached)).1.weaken hnm
    · rw [hlog]
      exact List.prefix_append _ _

end

/-! ## The programs -/

/-- Acts without a request among them. -/
def Unsent (h : List Act) : Prop := (calls h).countP TokenCall.isSend = 0

theorem Unsent.snoc {c : TokenCall} {x : c.Answer} (hh : Unsent h)
    (hc : c.isSend = false) : Unsent (h ++ [⟨c, x⟩]) := by
  rw [Unsent, calls_append, List.countP_append, show List.countP _ (calls h) = 0 from hh]
  simp [hc]

theorem Handed.mono {acts : List Act} (hh : Handed acts log token) :
    Handed acts (log ++ l) token := by
  rcases hh with hh | ⟨cached, now, htoken, hnow, hfetched, hacts⟩
  · exact .inl hh
  · exact .inr ⟨cached, now, htoken, hnow, hfetched.mono, hacts⟩

theorem lasting_handed {acts : List Act} :
    Lasting i fun s => Handed acts s.log token ∧
      ∀ n, S n → RespondedAfter n s.log token :=
  lasting_log (K := fun log => Handed acts log token ∧
      ∀ n, S n → RespondedAfter n log token)
    fun _ _ hk => ⟨hk.1.mono, fun n hn => (hk.2 n hn).mono⟩

/-- A token was obtained, or the error that was: the task is out of the mutex
again and has sent nothing, and a token was handed to it and is no older than
the slot is clean. -/
def Obtained (i : ι) (base : List (ι × Act)) (h : List Act) (S : Nat → Prop)
    (r : Except AppError String) (s : Slot ι) : Prop :=
  ∃ h', Unsent h' ∧ At i base (h ++ h') none S s ∧ ∀ token, r = .ok token →
    Handed (h ++ h') s.log token ∧ ∀ n, S n → RespondedAfter n s.log token

theorem fetchToken_keeps {h₀ : List Act} (hh : Unsent h₀)
    (hat : At i base (h ++ h₀) (some m) S s) (hm : ∀ n, S n → n ≤ m) :
    discipline.Keeps i fetchToken s (Obtained i base h S) := by
  refine keeps_quiet lasting_true trivial hat trivial
    (fun _ _ _ => ⟨trivial, nofun⟩) fun _ _ s _ _ _ hat _ => ?_
  refine keeps_quiet lasting_true trivial hat trivial
    (fun _ _ _ => ⟨trivial, nofun⟩) fun x s₁ s₂ hs hat₁ _ hat₂ _ => ?_
  cases x with
  | error e =>
      refine keeps_unlock lasting_true hat₂ trivial fun _ s _ _ _ _ hat => ?_
      exact ⟨_, ((hh.snoc rfl).snoc rfl).snoc rfl, by simpa using hat, nofun⟩
  | ok resp =>
      have hresp : RespondedAfter m s₂.log resp.accessToken := by
        refine ⟨i, resp, ?_, rfl⟩
        rw [log_step hs, List.drop_append_of_le_length (hat₁.late m rfl)]
        exact List.mem_append_right _ List.mem_cons_self
      refine keeps_quiet lasting_responded trivial hat₂ hresp
        (fun _ _ _ => ⟨trivial, nofun⟩) fun now _ s₃ _ _ _ hat₃ hresp₃ => ?_
      refine keeps_store (T := S) lasting_responded hat₃ hresp₃
        (fun s₁ hat₁ hresp cached hcached => ?_) (fun n hn => .inr ⟨hn, hm n hn⟩)
        (fun s₄ hat₄ hresp₄ => ?_) fun s₁ s₂ hl hk => ?_
      · cases hcached
        refine ⟨hresp, i, resp, now, ?_, rfl⟩
        rw [own_append, own_self, hat₁.acts]
        exact ⟨h ++ h₀ ++ [⟨.requestToken, ()⟩], [], by simp⟩
      · refine keeps_unlock lasting_responded hat₄ hresp₄
          fun s₁ s₅ hlog _ _ hresp hat => ?_
        refine ⟨_, ((((hh.snoc rfl).snoc rfl).snoc rfl).snoc rfl).snoc rfl,
          by simpa using hat, fun token htoken => ?_⟩
        cases htoken
        refine ⟨.inl ⟨resp, now, rfl, h ++ h₀ ++ [⟨.requestToken, ()⟩], by simp⟩,
          fun n hn => ?_⟩
        rw [hlog]
        exact (hresp.weaken (hm n hn)).mono
      · obtain ⟨l, hl⟩ := hl
        rw [← hl]
        exact hk.mono

theorem adminToken_keeps (hat : At i base h none S s) :
    discipline.Keeps i adminToken s (Obtained i base h S) := by
  refine keeps_lock hat fun m s hm hat => ?_
  refine keeps_quiet lasting_true trivial hat trivial
    (fun _ _ _ => ⟨trivial, nofun⟩) fun content s₁ s₂ hs _ _ hat₂ _ => ?_
  have hcontent : s₂.cache = content := by
    change Slot.step i s₁ .readCache content s₂ at hs
    rw [hs.2, hs.1]
    rfl
  have hunsent : Unsent [⟨.lock, ()⟩, ⟨.readCache, content⟩] := rfl
  have hfetch : ∀ s, At i base (h ++ [⟨.lock, ()⟩, ⟨.readCache, content⟩]) (some m)
      S s → discipline.Keeps i fetchToken s (Obtained i base h S) :=
    fun s hat => fetchToken_keeps hunsent hat hm
  rw [List.append_assoc] at hat₂
  cases content with
  | none => exact hfetch s₂ hat₂
  | some cached =>
      -- Until the mutex is given back, what was read is what is in the slot.
      refine keeps_quiet lasting_cache trivial hat₂
        ⟨(hat₂.mutex m).2 rfl, hcontent⟩ (fun _ _ _ => ⟨trivial, nofun⟩)
        fun now _ s₃ _ _ _ hat₃ hk₃ => ?_
      change discipline.Keeps i (if cached.expiresAt > now then _ else _) s₃ _
      split
      · next hgood =>
          refine keeps_unlock lasting_cache hat₃ hk₃
            fun s₁ s₄ hlog hinv hat₁ hk hat => ?_
          refine ⟨_, (hunsent.snoc rfl).snoc rfl, by simpa using hat, ?_⟩
          intro token htoken
          cases htoken
          refine ⟨.inr ⟨cached, now, rfl, hgood, ?_, h ++ [⟨.lock, ()⟩], by simp⟩,
            fun n hn => ?_⟩
          · rw [hlog]
            exact (hinv.fetched cached hk.2).mono
          · rw [hlog]
            exact ((hat₁.clean n hn).cache cached hk.2).mono
      · exact fetchToken_keeps (hunsent.snoc rfl) (by simpa using hat₃) hm

/-- The slot is emptied under the mutex: from then on it is clean since any
moment that was before. -/
theorem clearCachedToken_keeps (hat : At i base h none S s) :
    discipline.Keeps i clearCachedToken s fun _ s =>
      ∃ h', Unsent h' ∧ At i base (h ++ h') none (· ≤ base.length) s := by
  refine keeps_lock hat fun m s _ hat => ?_
  refine keeps_store (T := (· ≤ base.length)) lasting_true hat trivial
    (fun _ _ _ => nofun) (fun n hn => .inl ⟨hn, rfl⟩) (fun s hat _ => ?_)
    fun _ _ _ h => h
  refine keeps_unlock lasting_true hat trivial fun _ s _ _ _ _ hat => ?_
  exact ⟨[⟨.lock, ()⟩, ⟨.store none, ()⟩, ⟨.unlock, ()⟩], rfl, by simpa using hat⟩

theorem sendAdminRequestOnce_keeps {Q : Except AppError Response → Slot ι → Prop}
    (hat : At i base h none S s)
    (hmay : ∀ h' token s, Unsent h' → At i base (h ++ h') none S s →
      (∀ n, S n → RespondedAfter n s.log token) →
      MaySend i s.log token ∧ sends i s.log ≤ 1)
    (herror : ∀ e s, Q (.error e) s)
    (hok : ∀ h' token r s₁ s₂, Unsent h' →
      s₂.log = s₁.log ++ [(i, ⟨.response, r⟩)] →
      At i base (h ++ h' ++ [⟨.send token, ()⟩]) none S s₁ →
      At i base (h ++ h' ++ [⟨.send token, ()⟩, ⟨.response, r⟩]) none S s₂ →
      Q r s₂) :
    discipline.Keeps i sendAdminRequestOnce s Q := by
  refine Discipline.keeps_bind (fun r s hr => ?_) (adminToken_keeps hat)
  cases r with
  | error e => exact herror e s
  | ok token =>
      obtain ⟨h', hh', hat, htoken⟩ := hr
      refine keeps_quiet lasting_handed trivial hat (htoken token rfl)
        (fun s₁ hat₁ hk => ?_) fun _ _ s _ _ _ hat _ => ?_
      · obtain ⟨hsend, hle⟩ := hmay h' token s₁ hh' hat₁ hk.2
        exact ⟨⟨hsend, hat₁.acts ▸ hk.1⟩, fun _ => hle⟩
      · refine keeps_quiet lasting_true trivial hat trivial
          (fun _ _ _ => ⟨trivial, nofun⟩) fun r s₁ s₂ hs hat₁ _ hat₂ _ => ?_
        exact hok h' token r s₁ s₂ hh' (log_step hs) hat₁ (by simpa using hat₂)

/-- The second request goes out with a slot that is clean since the answer to
the first. -/
theorem retry_keeps {response : Response} (hstatus : response.status = unauthorized)
    (hbase : base = l ++ [(i, ⟨.response, .ok response⟩)]) (hone : sends i l = 1)
    (hat : At i base (own i base) none S s) :
    discipline.Keeps i (do clearCachedToken; sendAdminRequestOnce) s
      fun _ _ => True := by
  refine Discipline.keeps_bind (fun _ s hr => ?_) (clearCachedToken_keeps hat)
  obtain ⟨h', hh', hat⟩ := hr
  refine sendAdminRequestOnce_keeps hat (fun h'' token s hh'' hat hresp => ?_)
    (fun _ _ => trivial) fun _ _ _ _ _ _ _ _ _ => trivial
  obtain ⟨after, hafter⟩ := hat.past
  have hsends : sends i base = 1 := by
    rw [hbase, sends_append, hone]
    simp [sends, own_self, TokenCall.isSend]
  have hown : own i after = h' ++ h'' := by
    have := hat.acts
    rw [← hafter, own_append, List.append_assoc] at this
    exact List.append_cancel_left this
  have hzero : sends i after = 0 := by
    have h' : List.countP _ (calls h') = 0 := hh'
    have h'' : List.countP _ (calls h'') = 0 := hh''
    rw [sends, hown, calls_append, List.countP_append, h', h'']
  have hafresh : RespondedAfter 0 after token := by
    have := hresp base.length (Nat.le_refl _)
    rw [← hafter] at this
    obtain ⟨j, resp, hin, htoken⟩ := this
    rw [List.drop_left] at hin
    exact ⟨j, resp, hin, htoken⟩
  refine ⟨.inr ⟨l, after, response, ?_, hstatus, hone, hzero, hafresh⟩, ?_⟩
  · rw [← hafter, hbase, List.append_assoc]
    rfl
  · have hsum : sends i s.log = 1 := by
      rw [← hafter, sends_append, hsends, hzero]
    exact Nat.le_of_eq hsum

theorem sendAdminRequest_keeps (hat : At i [] [] none (fun _ => False) s) :
    discipline.Keeps i sendAdminRequest s fun _ _ => True := by
  refine Discipline.keeps_bind (fun r s hr => hr) (sendAdminRequestOnce_keeps hat
    (fun h' token s hh' hat _ => ?_) (fun _ _ => trivial)
    fun h' token r s₁ s₂ hh' hlog hat₁ hat₂ => ?_)
  · have hzero : sends i s.log = 0 := hat.sends_eq.trans hh'
    exact ⟨.inl hzero, hzero ▸ Nat.zero_le 1⟩
  · cases r with
    | error e => trivial
    | ok response =>
        change discipline.Keeps i (if response.status ≠ unauthorized then _ else _) s₂ _
        split
        · trivial
        · next hstatus =>
            have hone : sends i s₁.log = 1 := by
              have h' : List.countP _ (calls h') = 0 := hh'
              rw [hat₁.sends_eq, List.nil_append, calls_append, List.countP_append, h']
              rfl
            exact retry_keeps (S := fun _ => False) (not_not.1 hstatus) hlog hone
              ⟨List.prefix_rfl, rfl, hat₂.mutex, hat₂.late, fun _ h => False.elim h⟩

/-- However many requests are under way, each is sent twice at most, and
whatever a task is about to do is what it may do. -/
theorem requests_gated {P : Pool ι TokenCall TokenCall.Answer (Except AppError Response)}
    {clock : Nat}
    (hr : tasks.Reaches (fun _ => some sendAdminRequest) (Slot.new clock) P s) :
    (∀ i, sends i s.log ≤ 2) ∧
      ∀ i c k, P i = some (.call c k) → Gate i s.log c := by
  have hnew : ∀ i : ι, At i [] [] none (fun _ => False) (Slot.new clock) :=
    fun i => ⟨List.prefix_rfl, rfl, fun m => by simp [Slot.new],
      fun _ h => (by cases h), fun _ h => False.elim h⟩
  have hkept : discipline.Kept (fun _ : ι => some sendAdminRequest)
      (Slot.new clock) := by
    refine ⟨⟨nofun, fun i => Nat.zero_le 2⟩, fun i p hp => ?_⟩
    cases hp
    exact sendAdminRequest_keeps (hnew i)
  exact ⟨(Discipline.reaches_kept hkept hr).1.twice,
    fun i c k hi => Discipline.reaches_pre hkept hr hi⟩

def jwt : CachedToken := ⟨"jwt", expiry ⟨"jwt", 60⟩ 5⟩

def renewed : CachedToken := ⟨"new", expiry ⟨"new", 60⟩ 9⟩

/-- One of two tasks fetches a token, is turned away with it, and clears it and fetches
another; the other task has the first token from the slot by then. -/
def secondFetch : List (Bool × Act) :=
  [(true, ⟨.lock, ()⟩), (true, ⟨.readCache, none⟩), (true, ⟨.requestToken, ()⟩),
    (true, ⟨.tokenResponse, .ok ⟨"jwt", 60⟩⟩), (true, ⟨.now, (5 : Nat)⟩),
    (true, ⟨.store (some jwt), ()⟩), (true, ⟨.unlock, ()⟩), (true, ⟨.send "jwt", ()⟩),
    (false, ⟨.lock, ()⟩), (false, ⟨.readCache, some jwt⟩), (false, ⟨.now, (6 : Nat)⟩),
    (false, ⟨.unlock, ()⟩), (true, ⟨.response, .ok ⟨401, ""⟩⟩), (true, ⟨.lock, ()⟩),
    (true, ⟨.store none, ()⟩), (true, ⟨.unlock, ()⟩), (false, ⟨.send "jwt", ()⟩),
    (true, ⟨.lock, ()⟩), (true, ⟨.readCache, none⟩), (true, ⟨.requestToken, ()⟩),
    (true, ⟨.tokenResponse, .ok ⟨"new", 60⟩⟩), (true, ⟨.now, (9 : Nat)⟩),
    (true, ⟨.store (some renewed), ()⟩), (true, ⟨.unlock, ()⟩)]

/-- The first task has sent its request once, and what it does next is the second
time. -/
theorem secondFetch_gated : sends true secondFetch ≤ 2 ∧
    Gate true secondFetch (.send "new") := by
  have hrun : ∃ P k, tasks.Reaches (fun _ : Bool => some sendAdminRequest)
      (Slot.new 3) P ⟨none, some renewed, 9, secondFetch⟩ ∧
      P true = some (.call (.send "new") k) := by
    apply Exists.intro
    apply Exists.intro
    constructor
    · refine .head ⟨true, trivial, .call (x := ()) rfl ⟨rfl, rfl⟩⟩ ?_
      refine .head ⟨true, trivial, .call (x := none) rfl ⟨rfl, rfl⟩⟩ ?_
      refine .head ⟨true, trivial, .call (x := ()) rfl rfl⟩ ?_
      refine .head ⟨true, trivial, .call (x := .ok ⟨"jwt", 60⟩) rfl rfl⟩ ?_
      refine .head ⟨true, trivial, .call (x := (5 : Nat)) rfl ⟨by decide, rfl⟩⟩ ?_
      refine .head ⟨true, trivial, .call (x := ()) rfl rfl⟩ ?_
      refine .head ⟨true, trivial, .call (x := ()) rfl rfl⟩ ?_
      refine .head ⟨true, trivial, .call (x := ()) rfl rfl⟩ ?_
      refine .head ⟨false, trivial, .call (x := ()) rfl ⟨rfl, rfl⟩⟩ ?_
      refine .head ⟨false, trivial, .call (x := some jwt) rfl ⟨rfl, rfl⟩⟩ ?_
      refine .head ⟨false, trivial, .call (x := (6 : Nat)) rfl ⟨by decide, rfl⟩⟩ ?_
      refine .head ⟨false, trivial, .call (x := ()) rfl rfl⟩ ?_
      refine .head ⟨true, trivial, .call (x := .ok ⟨401, ""⟩) rfl rfl⟩ ?_
      refine .head ⟨true, trivial, .call (x := ()) rfl ⟨rfl, rfl⟩⟩ ?_
      refine .head ⟨true, trivial, .call (x := ()) rfl rfl⟩ ?_
      refine .head ⟨true, trivial, .call (x := ()) rfl rfl⟩ ?_
      refine .head ⟨false, trivial, .call (x := ()) rfl rfl⟩ ?_
      refine .head ⟨true, trivial, .call (x := ()) rfl ⟨rfl, rfl⟩⟩ ?_
      refine .head ⟨true, trivial, .call (x := none) rfl ⟨rfl, rfl⟩⟩ ?_
      refine .head ⟨true, trivial, .call (x := ()) rfl rfl⟩ ?_
      refine .head ⟨true, trivial, .call (x := .ok ⟨"new", 60⟩) rfl rfl⟩ ?_
      refine .head ⟨true, trivial, .call (x := (9 : Nat)) rfl ⟨by decide, rfl⟩⟩ ?_
      refine .head ⟨true, trivial, .call (x := ()) rfl rfl⟩ ?_
      exact .head ⟨true, trivial, .call (x := ()) rfl rfl⟩ .refl
    · rfl
  obtain ⟨P, k, hr, hi⟩ := hrun
  have hgated := requests_gated hr
  exact ⟨hgated.1 true, hgated.2 true _ k hi⟩

end MatrixIdentityAdmin.Ref.KeycloakClient
