import Mathlib.Data.List.Basic

/-!
# Fragments of HTML

A tokenizer for tags and text, with the states of the standard's that plain
markup gets to: names of letters, attributes in double quotes or without a
value. `read` takes the tokens for a sequence of elements that hold text and
nothing else. Character references stay in the texts, and `decode` resolves them;
a `&` that starts none of those it knows has no reading.
-/

namespace MatrixIdentityAdmin.Lib.Html

/-! ## Tokens -/

/-- An opening tag. -/
structure Tag where
  name : List Char
  attributes : List (List Char × List Char)
deriving DecidableEq, Repr

/-- What the tokenizer hands on. -/
inductive Token where
  | start (tag : Tag)
  | stop (name : List Char)
  | char (c : Char)
deriving DecidableEq, Repr

/-- The state of the tokenizer, with what it has read of a tag. -/
inductive State where
  | data
  | tagOpen
  | endTag (name : List Char)
  | tagName (name : List Char)
  | beforeAttr (tag : Tag)
  | attrName (tag : Tag) (attr : List Char)
  | beforeValue (tag : Tag) (attr : List Char)
  | value (tag : Tag) (attr value : List Char)
  | afterValue (tag : Tag)
deriving DecidableEq, Repr

def Tag.add (tag : Tag) (attr value : List Char) : Tag :=
  { tag with attributes := tag.attributes ++ [(attr, value)] }

/-- What a character is in a state: the state after it, and the token it ends. -/
def State.next : State → Char → Option (State × Option Token)
  | .data, c => if c = '<' then some (.tagOpen, none) else some (.data, some (.char c))
  | .tagOpen, c =>
      if c = '/' then some (.endTag [], none)
      else if c.isAlpha then some (.tagName [c], none)
      else none
  | .endTag name, c =>
      if c = '>' then some (.data, some (.stop name))
      else if c.isAlpha then some (.endTag (name ++ [c]), none)
      else none
  | .tagName name, c =>
      if c = '>' then some (.data, some (.start ⟨name, []⟩))
      else if c = ' ' then some (.beforeAttr ⟨name, []⟩, none)
      else if c.isAlpha then some (.tagName (name ++ [c]), none)
      else none
  | .beforeAttr tag, c =>
      if c.isAlpha then some (.attrName tag [c], none) else none
  | .attrName tag attr, c =>
      if c = '=' then some (.beforeValue tag attr, none)
      else if c = '>' then some (.data, some (.start (tag.add attr [])))
      else if c = ' ' then some (.beforeAttr (tag.add attr []), none)
      else if c.isAlpha then some (.attrName tag (attr ++ [c]), none)
      else none
  | .beforeValue tag attr, c =>
      if c = '"' then some (.value tag attr [], none) else none
  | .value tag attr v, c =>
      if c = '"' then some (.afterValue (tag.add attr v), none)
      else some (.value tag attr (v ++ [c]), none)
  | .afterValue tag, c =>
      if c = '>' then some (.data, some (.start tag))
      else if c = ' ' then some (.beforeAttr tag, none)
      else none

/-- The tokens of a text, read from a state. -/
def tokens : State → List Char → Option (List Token)
  | state, [] => if state = .data then some [] else none
  | state, c :: cs =>
      (state.next c).bind fun r => (tokens r.1 cs).map fun ts => r.2.toList ++ ts

/-! ## Elements -/

/-- An element and the text in it. -/
structure Element where
  tag : Tag
  text : List Char
deriving DecidableEq, Repr

/-- The elements, with the one that is open. -/
def elements : Option Element → List Token → Option (List Element)
  | none, [] => some []
  | none, .start tag :: ts => elements (some ⟨tag, []⟩) ts
  | some e, .char c :: ts => elements (some ⟨e.tag, e.text ++ [c]⟩) ts
  | some e, .stop name :: ts =>
      if name = e.tag.name then (elements none ts).map fun es => e :: es else none
  | _, _ => none

def read (cs : List Char) : Option (List Element) :=
  (tokens .data cs).bind (elements none)

/-! ## Character references -/

def decode : List Char → Option (List Char)
  | '&' :: 'a' :: 'm' :: 'p' :: ';' :: cs => (decode cs).map ('&' :: ·)
  | '&' :: 'l' :: 't' :: ';' :: cs => (decode cs).map ('<' :: ·)
  | '&' :: 'g' :: 't' :: ';' :: cs => (decode cs).map ('>' :: ·)
  | '&' :: 'q' :: 'u' :: 'o' :: 't' :: ';' :: cs => (decode cs).map ('"' :: ·)
  | '&' :: '#' :: '3' :: '9' :: ';' :: cs => (decode cs).map (Char.ofNat 39 :: ·)
  | c :: cs => if c = '&' then none else (decode cs).map (c :: ·)
  | [] => some []

/-- What stands for a character is read as the character. -/
def Encodes (enc : Char → List Char) : Prop :=
  ∀ c cs, decode (enc c ++ cs) = (decode cs).map (c :: ·)

theorem decode_cons {c : Char} (h : c ≠ '&') (cs : List Char) :
    decode (c :: cs) = (decode cs).map (c :: ·) := by
  rw [decode]
  · rw [if_neg h]
  all_goals
    intro _ hc
    exact absurd hc h

theorem Encodes.decode_flatMap {enc : Char → List Char} (h : Encodes enc) (s : List Char) :
    decode (s.flatMap enc) = some s := by
  induction s with
  | nil => rfl
  | cons c s ih => rw [List.flatMap_cons, h, ih, Option.map_some]

theorem decode_of_no_reference {s : List Char} (h : '&' ∉ s) : decode s = some s := by
  induction s with
  | nil => rfl
  | cons c s ih =>
      rw [List.mem_cons, not_or] at h
      rw [decode_cons (Ne.symm h.1), ih h.2, Option.map_some]

/-! ## Written and read

An element with one attribute, the way it is usually written. -/

/-- The name of a tag or of an attribute: letters, and not none. -/
structure Name (name : List Char) : Prop where
  ne_nil : name ≠ []
  alpha : ∀ c ∈ name, c.isAlpha = true

def write (name attr value text : List Char) : List Char :=
  '<' :: (name ++ ' ' :: (attr ++ '=' :: '"' :: (value ++ '"' :: '>' ::
    (text ++ '<' :: '/' :: (name ++ ['>'])))))

/-- The element that is written so. -/
def element (name attr value text : List Char) : Element :=
  ⟨⟨name, [(attr, value)]⟩, text⟩

def Element.tokens (e : Element) : List Token :=
  .start e.tag :: (e.text.map Token.char ++ [.stop e.tag.name])

section

variable {name attr value text rest : List Char} {tag : Tag} {c d : Char}

theorem ne_of_isAlpha (hc : c.isAlpha = true) (hd : d.isAlpha = false) : c ≠ d := by
  intro h
  rw [h, hd] at hc
  cases hc

theorem tokens_step {s : State} (n : State) (h : s.next c = some (n, none)) :
    tokens s (c :: rest) = tokens n rest := by
  rw [tokens, h, Option.bind_some]
  exact Option.map_id'

theorem tokens_emit {s : State} (n : State) {t : Token} (h : s.next c = some (n, some t)) :
    tokens s (c :: rest) = (tokens n rest).map fun ts => t :: ts := by
  rw [tokens, h, Option.bind_some]
  rfl

/-- A state that gathers characters. -/
theorem tokens_gather {s : List Char → State} {w : List Char}
    (h : ∀ c ∈ w, ∀ before, (s before).next c = some (s (before ++ [c]), none))
    (before : List Char) : tokens (s before) (w ++ rest) = tokens (s (before ++ w)) rest := by
  induction w generalizing before with
  | nil => rw [List.append_nil]; rfl
  | cons c w ih =>
      have ih := ih (fun d hd => h d (List.mem_cons_of_mem c hd)) (before ++ [c])
      rw [List.cons_append, tokens_step _ (h c List.mem_cons_self before), ih, List.append_assoc]
      rfl

theorem next_tagName (h : c.isAlpha = true) (before : List Char) :
    (State.tagName before).next c = some (.tagName (before ++ [c]), none) := by
  rw [State.next, if_neg (ne_of_isAlpha h (by decide)), if_neg (ne_of_isAlpha h (by decide)),
    if_pos h]

theorem next_endTag (h : c.isAlpha = true) (before : List Char) :
    (State.endTag before).next c = some (.endTag (before ++ [c]), none) := by
  rw [State.next, if_neg (ne_of_isAlpha h (by decide)), if_pos h]

theorem next_attrName (h : c.isAlpha = true) (before : List Char) :
    (State.attrName tag before).next c = some (.attrName tag (before ++ [c]), none) := by
  rw [State.next, if_neg (ne_of_isAlpha h (by decide)), if_neg (ne_of_isAlpha h (by decide)),
    if_neg (ne_of_isAlpha h (by decide)), if_pos h]

theorem next_value (h : c ≠ '"') (before : List Char) :
    (State.value tag attr before).next c = some (.value tag attr (before ++ [c]), none) :=
  if_neg h

theorem tokens_name (h : Name name) :
    tokens .data ('<' :: (name ++ ' ' :: rest)) = tokens (.beforeAttr ⟨name, []⟩) rest := by
  obtain ⟨c, name, rfl⟩ := List.exists_cons_of_ne_nil h.ne_nil
  have hc := h.alpha c List.mem_cons_self
  have hopen : State.tagOpen.next c = some (.tagName [c], none) := by
    rw [State.next, if_neg (ne_of_isAlpha hc (by decide)), if_pos hc]
  rw [tokens_step .tagOpen rfl, List.cons_append, tokens_step _ hopen,
    tokens_gather fun c hc => next_tagName (h.alpha c (List.mem_cons_of_mem _ hc))]
  exact tokens_step _ rfl

theorem tokens_attr (h : Name attr) (hvalue : '"' ∉ value) :
    tokens (.beforeAttr tag) (attr ++ '=' :: '"' :: (value ++ '"' :: rest)) =
      tokens (.afterValue (tag.add attr value)) rest := by
  obtain ⟨c, attr, rfl⟩ := List.exists_cons_of_ne_nil h.ne_nil
  have hopen : (State.beforeAttr tag).next c = some (.attrName tag [c], none) :=
    if_pos (h.alpha c List.mem_cons_self)
  have hchars : ∀ c ∈ value, c ≠ '"' := by
    intro c hc heq
    exact hvalue (heq ▸ hc)
  rw [List.cons_append, tokens_step _ hopen,
    tokens_gather fun c hc => next_attrName (h.alpha c (List.mem_cons_of_mem _ hc)),
    tokens_step (.beforeValue tag (c :: attr)) rfl,
    tokens_step (.value tag (c :: attr) []) rfl,
    tokens_gather fun c hc => next_value (hchars c hc)]
  exact tokens_step _ rfl

theorem tokens_text (h : '<' ∉ text) :
    tokens .data (text ++ rest) =
      (tokens .data rest).map fun ts => text.map Token.char ++ ts := by
  induction text with
  | nil => exact Option.map_id'.symm
  | cons c text ih =>
      rw [List.mem_cons, not_or] at h
      have hnext : State.data.next c = some (.data, some (.char c)) := if_neg (Ne.symm h.1)
      rw [List.cons_append, tokens_emit _ hnext, ih h.2, Option.map_map]
      rfl

theorem tokens_stop (h : Name name) :
    tokens .data ('<' :: '/' :: (name ++ '>' :: rest)) =
      (tokens .data rest).map fun ts => .stop name :: ts := by
  rw [tokens_step .tagOpen rfl, tokens_step (.endTag []) rfl,
    tokens_gather fun c hc => next_endTag (h.alpha c hc), tokens_emit .data rfl]
  rfl

/-- An element whose value and text cannot end it early. -/
structure Sound (e : List Char × List Char) : Prop where
  value : '"' ∉ e.1
  text : '<' ∉ e.2

theorem tokens_write (hname : Name name) (hattr : Name attr) {e : List Char × List Char}
    (he : Sound e) :
    tokens .data (write name attr e.1 e.2 ++ rest) =
      (tokens .data rest).map fun ts => (element name attr e.1 e.2).tokens ++ ts := by
  have hwrite : write name attr e.1 e.2 ++ rest =
      '<' :: (name ++ ' ' :: (attr ++ '=' :: '"' :: (e.1 ++ '"' :: '>' ::
        (e.2 ++ '<' :: '/' :: (name ++ '>' :: rest))))) := by
    simp [write]
  rw [hwrite, tokens_name hname, tokens_attr hattr he.value, tokens_emit .data rfl,
    tokens_text he.text, tokens_stop hname, Option.map_map, Option.map_map]
  refine congrArg (Option.map · _) (funext fun ts => ?_)
  simp [Element.tokens, element, Tag.add]

theorem elements_chars {e : Element} {ts : List Token} :
    elements (some e) (text.map Token.char ++ ts) =
      elements (some ⟨e.tag, e.text ++ text⟩) ts := by
  induction text generalizing e with
  | nil => rw [List.append_nil]; rfl
  | cons c text ih =>
      rw [List.map_cons, List.cons_append, elements, ih, List.append_assoc]
      rfl

theorem elements_tokens (e : Element) (ts : List Token) :
    elements none (e.tokens ++ ts) = (elements none ts).map fun es => e :: es := by
  rw [Element.tokens, List.cons_append, elements, List.append_assoc, elements_chars,
    List.singleton_append, elements, if_pos rfl]
  rfl

/-- What is written is read back. -/
theorem read_write (hname : Name name) (hattr : Name attr)
    {es : List (List Char × List Char)} (h : ∀ e ∈ es, Sound e) :
    read (es.flatMap fun e => write name attr e.1 e.2) =
      some (es.map fun e => element name attr e.1 e.2) := by
  have htokens : tokens .data (es.flatMap fun e => write name attr e.1 e.2) =
      some (es.flatMap fun e => (element name attr e.1 e.2).tokens) := by
    induction es with
    | nil => rfl
    | cons e es ih =>
        rw [List.flatMap_cons, tokens_write hname hattr (h e List.mem_cons_self),
          ih fun d hd => h d (List.mem_cons_of_mem e hd)]
        rfl
  have helements : ∀ es : List Element,
      elements none (es.flatMap Element.tokens) = some es := by
    intro es
    induction es with
    | nil => rfl
    | cons e es ih => rw [List.flatMap_cons, elements_tokens, ih, Option.map_some]
  rw [read, htokens, Option.bind_some, ← helements, List.flatMap_map]

end

end MatrixIdentityAdmin.Lib.Html
