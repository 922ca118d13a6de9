import Mathlib.Algebra.GroupWithZero.Nat
import Mathlib.Data.List.DropRight
import MatrixIdentityAdmin.Lib.PercentEncoding

/-!
# The path of a URL

What a URL parser makes of the text after the origin of an `http` or `https`
URL, as the URL Standard has it: the text is trimmed and loses its tabs and
newlines, is cut at `#` and `?`, is split at slashes of either kind, and the
segments `.` and `..` are walked off, also where they are spelled with `%2e`.

The text of a request is put together from pieces, and what this module is
about is when the parser takes it apart at the same seams. `Intact` says so of
the pieces, and `addresses_iff` that nothing else will do: two pieces never
make up for each other.
-/

namespace MatrixIdentityAdmin.Lib.Url

/-! ## The parser -/

/-- What a request is sent to, below the origin. The texts of the query and of
the fragment are left as they came. -/
structure Target where
  segments : List (List Char)
  query : Option (List Char)
  fragment : Option (List Char)
deriving DecidableEq, Repr

def isSlash (c : Char) : Bool := c = '/' || c = '\\'

def isNewline (c : Char) : Bool := c = '\t' || c = '\n' || c = '\r'

/-- A C0 control or a space. -/
def isBlank (c : Char) : Bool := c.toNat ≤ 0x20

def trimEnd (cs : List Char) : List Char := cs.rdropWhile isBlank

def dropNewlines (cs : List Char) : List Char := cs.filter fun c => !isNewline c

/-- The text up to the first `c`, and what comes after it if there is one. -/
def cutAt (c : Char) : List Char → List Char × Option (List Char)
  | [] => ([], none)
  | d :: cs =>
      if d = c then ([], some cs)
      else (d :: (cutAt c cs).1, (cutAt c cs).2)

def pieces (cs : List Char) : List (List Char) := cs.splitOnP isSlash

/-- `.`, `%2e` and `%2E`, which are all the texts that decode to a dot. -/
def isSingleDot (s : List Char) : Bool := percentDecode s = [0x2E]

def isDoubleDot (s : List Char) : Bool := percentDecode s = [0x2E, 0x2E]

/-- Walking off the segments, the last of which ends the path. -/
def resolve (path : List (List Char)) : List (List Char) → List (List Char)
  | [] => path
  | [s] =>
      if isDoubleDot s then path.dropLast ++ [[]]
      else if isSingleDot s then path ++ [[]]
      else path ++ [s]
  | s :: t :: rest =>
      resolve
        (if isDoubleDot s then path.dropLast
          else if isSingleDot s then path
          else path ++ [s]) (t :: rest)

/-- What a text that begins with a slash is parsed to after an origin. The set
is what is encoded in a path, which the standard has changed its mind about. -/
def parse (set : Char → Bool) (text : List Char) : Target :=
  let text := dropNewlines (trimEnd text)
  let (text, fragment) := cutAt '#' text
  let (path, query) := cutAt '?' text
  ⟨resolve [] ((pieces path).tail.map (percentEncode set)), query, fragment⟩

/-! ## Requests put together from pieces -/

/-- A piece of a path as it is written, and the bytes it stands for. -/
structure Piece where
  text : List Char
  value : List UInt8

def join (ts : List (List Char)) : List Char := ts.flatMap fun t => '/' :: t

/-- A character that neither ends a segment nor is dropped inside of one. -/
def isOrdinary (c : Char) : Bool :=
  !isSlash c && !isNewline c && c ≠ '?' && c ≠ '#'

namespace Piece

/-- A piece is either written as it is, or spelled in a way that the parser has
no business with. -/
def Written (p : Piece) : Prop :=
  p.value = utf8 p.text ∨
    (∀ c ∈ p.text, isOrdinary c = true ∧ isBlank c = false) ∧
      percentDecode p.text = p.value

/-- The parser takes the piece for one segment that stands for its bytes. -/
structure Survives (p : Piece) : Prop where
  ordinary : ∀ c ∈ p.text, isOrdinary c = true
  decoded : percentDecode p.text = p.value
  single : isSingleDot p.text = false
  double : isDoubleDot p.text = false

end Piece

/-- Every piece survives, and nothing is trimmed off the last one. -/
def Intact : List Piece → Prop
  | [] => True
  | [p] => p.Survives ∧ trimEnd p.text = p.text
  | p :: q :: ps => p.Survives ∧ Intact (q :: ps)

/-- The target has one segment for each of the values, and nothing else. -/
structure Target.Addresses (t : Target) (values : List (List UInt8)) : Prop where
  query : t.query = none
  fragment : t.fragment = none
  segments : t.segments.map percentDecode = values

/-! ### The steps of the parser on a joined path -/

section

variable {cs ds : List Char} {ts : List (List Char)}

theorem trimEnd_append_slash (cs : List Char) :
    trimEnd (cs ++ '/' :: ds) = cs ++ '/' :: trimEnd ds := by
  rw [trimEnd, trimEnd, List.rdropWhile, List.rdropWhile, List.reverse_append,
    List.reverse_cons, List.append_assoc, List.dropWhile_append]
  split
  · next h =>
      rw [List.isEmpty_iff] at h
      rw [h]
      simp [isBlank]
  · rw [List.reverse_append, List.reverse_append]
    simp

/-- What is left of the pieces' texts. -/
def cleaned : List (List Char) → List (List Char)
  | [] => []
  | [t] => [dropNewlines (trimEnd t)]
  | t :: u :: ts => dropNewlines t :: cleaned (u :: ts)

theorem join_cons (t : List Char) (ts : List (List Char)) :
    join (t :: ts) = '/' :: (t ++ join ts) := List.flatMap_cons

theorem dropNewlines_slash : dropNewlines ('/' :: cs) = '/' :: dropNewlines cs :=
  rfl

theorem dropNewlines_append :
    dropNewlines (cs ++ ds) = dropNewlines cs ++ dropNewlines ds :=
  List.filter_append ..

theorem clean_join (h : ts ≠ []) :
    dropNewlines (trimEnd (join ts)) = join (cleaned ts) := by
  have hslash : ∀ {ds}, trimEnd ('/' :: ds) = '/' :: trimEnd ds :=
    trimEnd_append_slash []
  induction ts with
  | nil => exact absurd rfl h
  | cons t ts ih =>
      cases ts with
      | nil =>
          rw [join_cons, hslash, dropNewlines_slash, cleaned, join_cons]
          have hnil : join [] = [] := rfl
          rw [hnil, List.append_nil, List.append_nil]
      | cons u ts =>
          have hrest := ih (List.cons_ne_nil u ts)
          rw [cleaned, join_cons t, join_cons (dropNewlines t), ← hrest, join_cons u,
            hslash, trimEnd_append_slash, hslash, dropNewlines_slash,
            dropNewlines_append]

theorem cutAt_of_notMem {c : Char} (h : c ∉ cs) : cutAt c cs = (cs, none) := by
  induction cs with
  | nil => rfl
  | cons d cs ih =>
      rw [List.mem_cons, not_or] at h
      rw [cutAt, if_neg (Ne.symm h.1), ih h.2]

theorem notMem_of_cutAt {c : Char} (h : (cutAt c cs).2 = none) : c ∉ cs := by
  induction cs with
  | nil => exact List.not_mem_nil
  | cons d cs ih =>
      rw [cutAt] at h
      split at h
      · cases h
      · next hd =>
          rw [List.mem_cons, not_or]
          exact ⟨Ne.symm hd, ih h⟩

theorem pieces_append_join :
    pieces (cs ++ join ts) = pieces cs ++ ts.flatMap pieces := by
  induction ts generalizing cs with
  | nil => rw [join, List.flatMap_nil, List.flatMap_nil, List.append_nil, List.append_nil]
  | cons t ts ih =>
      rw [join_cons, pieces, List.splitOnP_append_cons _ _ rfl, List.flatMap_cons]
      exact congrArg (pieces cs ++ ·) ih

theorem pieces_join : (pieces (join ts)).tail = ts.flatMap pieces := by
  have h : pieces ([] ++ join ts) = pieces [] ++ ts.flatMap pieces := pieces_append_join
  rw [List.nil_append] at h
  rw [h]
  rfl

end

/-! ### Nothing is gained on the way

A segment weighs as much as the bytes it stands for, and one more for its
slash. Every step of the parser can only lose weight, so where none is lost
no step did anything. -/

def weight (ss : List (List Char)) : Nat :=
  (ss.map fun s => (percentDecode s).length + 1).sum

section

variable {set : Char → Bool} {s cs ds : List Char} {path ss : List (List Char)}

@[simp] theorem weight_nil : weight [] = 0 := rfl

@[simp] theorem weight_cons (s : List Char) (ss : List (List Char)) :
    weight (s :: ss) = (percentDecode s).length + 1 + weight ss := rfl

@[simp] theorem weight_empty : weight [[]] = 1 := rfl

@[simp] theorem weight_append : weight (path ++ ss) = weight path + weight ss := by
  rw [weight, weight, weight, List.map_append, List.sum_append]

theorem weight_encode (hset : Spares set) :
    weight (ss.map (percentEncode set)) = weight ss := by
  rw [weight, weight, List.map_map]
  congr 1
  refine List.map_congr_left fun s _ => ?_
  rw [Function.comp_apply, decode_encode_spares hset]

theorem weight_dropLast_le (path : List (List Char)) :
    weight path.dropLast ≤ weight path := by
  induction path with
  | nil => exact Nat.le_refl _
  | cons s path ih =>
      cases path with
      | nil => exact Nat.zero_le _
      | cons t path =>
          rw [List.dropLast_cons_cons, weight_cons, weight_cons]
          exact Nat.add_le_add_left ih _

/-- A segment that is no dot segment. -/
def Plain (s : List Char) : Prop := isSingleDot s = false ∧ isDoubleDot s = false

theorem resolve_plain (h : ∀ s ∈ ss, Plain s) : resolve path ss = path ++ ss := by
  induction ss generalizing path with
  | nil => rw [resolve, List.append_nil]
  | cons s ss ih =>
      have hs := h s List.mem_cons_self
      cases ss with
      | nil => rw [resolve, hs.1, hs.2, if_neg Bool.false_ne_true, if_neg Bool.false_ne_true]
      | cons t ss =>
          rw [resolve, hs.1, hs.2, if_neg Bool.false_ne_true, if_neg Bool.false_ne_true,
            ih fun u hu => h u (List.mem_cons_of_mem s hu), List.append_assoc]
          rfl

/-- What one segment that is not the last makes of the path. -/
theorem weight_step_le (s : List Char) (path : List (List Char)) :
    weight (if isDoubleDot s then path.dropLast
      else if isSingleDot s then path else path ++ [s]) ≤
    weight path + weight [s] := by
  have hdrop := weight_dropLast_le path
  split
  · omega
  · split
    · omega
    · rw [weight_append]

theorem weight_resolve_le (path ss : List (List Char)) :
    weight (resolve path ss) ≤ weight path + weight ss := by
  induction ss generalizing path with
  | nil => exact Nat.le_refl _
  | cons s ss ih =>
      cases ss with
      | nil =>
          have hdrop := weight_dropLast_le path
          rw [resolve, weight_cons, weight_nil]
          split
          · rw [weight_append, weight_empty]
            omega
          · split
            · rw [weight_append, weight_empty]
              omega
            · rw [weight_append, weight_cons, weight_nil]
      | cons t ss =>
          have hstep := weight_step_le s path
          have hrest := ih (if isDoubleDot s then path.dropLast
            else if isSingleDot s then path else path ++ [s])
          rw [weight_cons, weight_nil] at hstep
          rw [resolve, weight_cons s]
          omega

/-- Where no weight is lost, there was nothing to walk off. -/
theorem plain_of_weight (h : weight path + weight ss ≤ weight (resolve path ss)) :
    ∀ s ∈ ss, Plain s := by
  induction ss generalizing path with
  | nil => intro s hs; cases hs
  | cons s ss ih =>
      have hdrop := weight_dropLast_le path
      rw [weight_cons] at h
      cases hd : isDoubleDot s with
      | true =>
          have hlen : (percentDecode s).length = 2 :=
            congrArg List.length (of_decide_eq_true hd)
          cases ss with
          | nil =>
              rw [resolve, hd, if_pos rfl, weight_append, weight_empty] at h
              omega
          | cons t ss =>
              have hrest := weight_resolve_le path.dropLast (t :: ss)
              rw [resolve, hd, if_pos rfl] at h
              omega
      | false =>
          cases hsingle : isSingleDot s with
          | true =>
              have hlen : (percentDecode s).length = 1 :=
                congrArg List.length (of_decide_eq_true hsingle)
              cases ss with
              | nil =>
                  rw [resolve, hd, if_neg Bool.false_ne_true, hsingle, if_pos rfl,
                    weight_append, weight_empty] at h
                  omega
              | cons t ss =>
                  have hrest := weight_resolve_le path (t :: ss)
                  rw [resolve, hd, if_neg Bool.false_ne_true, hsingle, if_pos rfl] at h
                  omega
          | false =>
              intro u hu
              rcases List.mem_cons.1 hu with rfl | hu
              · exact ⟨hsingle, hd⟩
              · cases ss with
                | nil => cases hu
                | cons t ss =>
                    rw [resolve, hd, if_neg Bool.false_ne_true, hsingle,
                      if_neg Bool.false_ne_true] at h
                    have hrest : weight (path ++ [s]) + weight (t :: ss) ≤
                        weight (resolve (path ++ [s]) (t :: ss)) := by
                      rw [weight_append, weight_cons s, weight_nil]
                      omega
                    exact ih hrest u hu

theorem length_utf8_slash {c : Char} (h : isSlash c = true) :
    (String.utf8EncodeChar c).length = 1 := by
  rw [isSlash, Bool.or_eq_true, decide_eq_true_eq, decide_eq_true_eq] at h
  rcases h with rfl | rfl
  · rfl
  · rfl

/-- However a text is split, its bytes and its slashes are all there. -/
theorem sum_pieces :
    ((pieces cs).map fun p => (utf8 p).length + 1).sum = (utf8 cs).length + 1 := by
  induction cs with
  | nil => rfl
  | cons c cs ih =>
      rw [pieces, List.splitOnP_cons_eq_if_modifyHead, utf8_cons, List.length_append,
        ← pieces]
      split
      · next hc =>
          rw [List.map_cons, List.sum_cons, ih, length_utf8_slash hc, utf8_nil]
          rfl
      · obtain ⟨p, ps, hps⟩ :=
          List.exists_cons_of_ne_nil (List.splitOnP_ne_nil isSlash cs)
        have hpieces : pieces cs = p :: ps := hps
        rw [hpieces, List.map_cons, List.sum_cons] at ih
        rw [hpieces, List.modifyHead_cons, List.map_cons, List.sum_cons, utf8_cons,
          List.length_append]
        omega

/-- A text weighs as much as its bytes at most. -/
theorem weight_pieces_le (cs : List Char) :
    weight (pieces cs) ≤ (utf8 cs).length + 1 := by
  rw [← sum_pieces]
  generalize pieces cs = ps
  induction ps with
  | nil => exact Nat.le_refl _
  | cons p ps ih =>
      have hp := (length_decode_le p).1
      rw [weight_cons, List.map_cons, List.sum_cons]
      omega

theorem length_pieces_pos (cs : List Char) : 0 < (pieces cs).length :=
  List.length_pos_of_ne_nil (List.splitOnP_ne_nil isSlash cs)

/-- A text that is left in one piece has no slash. -/
theorem isSlash_of_pieces (h : (pieces cs).length ≤ 1) :
    ∀ c ∈ cs, isSlash c = false := by
  induction cs with
  | nil => intro c hc; cases hc
  | cons d cs ih =>
      have hpos := length_pieces_pos cs
      rw [pieces, List.splitOnP_cons_eq_if_modifyHead, ← pieces] at h
      split at h
      · rw [List.length_cons] at h
        omega
      · next hd =>
          rw [List.length_modifyHead] at h
          intro c hc
          rcases List.mem_cons.1 hc with rfl | hc
          · exact Bool.eq_false_iff.2 hd
          · exact ih h c hc

theorem pieces_of_isSlash (h : ∀ c ∈ cs, isSlash c = false) : pieces cs = [cs] :=
  List.splitOnP_eq_singleton h

theorem length_utf8_le (h : ds.Sublist cs) : (utf8 ds).length ≤ (utf8 cs).length := by
  induction h with
  | slnil => exact Nat.le_refl _
  | cons c _ ih =>
      rw [utf8_cons, List.length_append]
      omega
  | cons_cons c _ ih =>
      rw [utf8_cons, utf8_cons, List.length_append, List.length_append]
      omega

/-- A text that keeps all its bytes keeps all its characters. -/
theorem eq_of_length_utf8 (h : ds.Sublist cs)
    (hlen : (utf8 cs).length ≤ (utf8 ds).length) : ds = cs := by
  induction h with
  | slnil => rfl
  | cons c h ih =>
      have hc := length_utf8EncodeChar_pos c
      have hle := length_utf8_le h
      rw [utf8_cons, List.length_append] at hlen
      omega
  | cons_cons c h ih =>
      rw [utf8_cons, utf8_cons, List.length_append, List.length_append] at hlen
      rw [ih (by omega)]

end

/-! ### When a joined path is taken apart again -/

/-- What a joined path should weigh. -/
def total (ps : List Piece) : Nat := (ps.map fun p => p.value.length + 1).sum

theorem total_cons (p : Piece) (ps : List Piece) :
    total (p :: ps) = p.value.length + 1 + total ps := rfl

namespace Piece

variable {p : Piece} {t : List Char}

theorem isSlash_of_isOrdinary {c : Char} (h : isOrdinary c = true) :
    isSlash c = false := by
  rw [isOrdinary] at h
  simp at h
  exact h.1.1.1

theorem isNewline_of_isOrdinary {c : Char} (h : isOrdinary c = true) :
    isNewline c = false := by
  rw [isOrdinary] at h
  simp at h
  exact h.1.1.2

theorem trimEnd_eq (h : ∀ c ∈ t, isBlank c = false) : trimEnd t = t := by
  rw [trimEnd, List.rdropWhile_eq_self_iff]
  intro hne
  rw [h _ (List.getLast_mem hne)]
  exact Bool.false_ne_true

theorem dropNewlines_eq (h : ∀ c ∈ t, isNewline c = false) : dropNewlines t = t := by
  rw [dropNewlines, List.filter_eq_self]
  intro c hc
  rw [h c hc]
  rfl

/-- What is left of a piece weighs no more than it should. -/
theorem weight_le (hp : p.Written) (ht : t.Sublist p.text)
    (hsame : (∀ c ∈ p.text, isOrdinary c = true ∧ isBlank c = false) → t = p.text) :
    weight (pieces t) ≤ p.value.length + 1 := by
  rcases hp with hraw | ⟨hord, hdec⟩
  · have hle := weight_pieces_le t
    have hlen := length_utf8_le ht
    rw [hraw]
    omega
  · rw [hsame hord, pieces_of_isSlash fun c hc => isSlash_of_isOrdinary (hord c hc).1,
      weight_cons, hdec]
    exact Nat.le_refl _

/-- Where it weighs as much as it should, is in one piece and no dot segment,
and the cuts have not touched it, it has survived. -/
theorem survives (hp : p.Written) (ht : t.Sublist p.text)
    (hsame : (∀ c ∈ p.text, isOrdinary c = true ∧ isBlank c = false) → t = p.text)
    (hnewline : ∀ c ∈ t, isNewline c = false) (hquery : '?' ∉ t)
    (hfragment : '#' ∉ t) (hweight : p.value.length + 1 ≤ weight (pieces t))
    (hone : (pieces t).length ≤ 1) (hplain : ∀ s ∈ pieces t, Plain s) :
    p.Survives ∧ t = p.text := by
  have hslash := isSlash_of_pieces hone
  rw [pieces_of_isSlash hslash] at hweight hplain
  have hdot : Plain t := hplain t List.mem_cons_self
  have hord : ∀ c ∈ t, isOrdinary c = true := by
    intro c hc
    have hq : c ≠ '?' := fun h => hquery (h ▸ hc)
    have hf : c ≠ '#' := fun h => hfragment (h ▸ hc)
    simp [isOrdinary, hslash c hc, hnewline c hc, hq, hf]
  rw [weight_cons, weight_nil] at hweight
  rcases hp with hraw | ⟨hrest, hdec⟩
  · rw [hraw] at hweight
    have hle := (length_decode_le t).1
    have hlen := length_utf8_le ht
    have heq : t = p.text := eq_of_length_utf8 ht (by omega)
    subst heq
    have hescape : hasEscape p.text = false := by
      cases he : hasEscape p.text with
      | false => rfl
      | true =>
          have := (length_decode_le p.text).2 he
          omega
    exact ⟨⟨hord, (decode_of_hasEscape hescape).trans hraw.symm, hdot.1, hdot.2⟩, rfl⟩
  · have heq := hsame hrest
    subst heq
    exact ⟨⟨hord, hdec, hdot.1, hdot.2⟩, rfl⟩

end Piece

section

variable {set : Char → Bool} {p : Piece} {ps : List Piece} {ts : List (List Char)}

theorem dropNewlines_newline {t : List Char} :
    ∀ c ∈ dropNewlines t, isNewline c = false := by
  intro c hc
  rw [dropNewlines, List.mem_filter] at hc
  simpa using hc.2

theorem dropNewlines_sublist (t : List Char) : (dropNewlines t).Sublist t :=
  List.filter_sublist

theorem trimEnd_sublist (t : List Char) : (trimEnd t).Sublist t :=
  (List.rdropWhile_prefix _ t).sublist

theorem cleaned_sublist (t : List Char) : (dropNewlines (trimEnd t)).Sublist t :=
  (dropNewlines_sublist _).trans (trimEnd_sublist t)

theorem dropNewlines_same {t : List Char}
    (h : ∀ c ∈ t, isOrdinary c = true ∧ isBlank c = false) : dropNewlines t = t :=
  Piece.dropNewlines_eq fun c hc => Piece.isNewline_of_isOrdinary (h c hc).1

theorem cleaned_same {t : List Char}
    (h : ∀ c ∈ t, isOrdinary c = true ∧ isBlank c = false) :
    dropNewlines (trimEnd t) = t := by
  rw [Piece.trimEnd_eq fun c hc => (h c hc).2, dropNewlines_same h]

theorem length_cleaned (ts : List (List Char)) : (cleaned ts).length = ts.length := by
  induction ts using cleaned.induct with
  | case1 => rfl
  | case2 t => rfl
  | case3 t u ts ih =>
      rw [cleaned, List.length_cons, ih]
      rfl

theorem length_flatMap_pieces (ts : List (List Char)) :
    ts.length ≤ (ts.flatMap pieces).length := by
  induction ts with
  | nil => exact Nat.le_refl _
  | cons t ts ih =>
      have hpos := length_pieces_pos t
      rw [List.flatMap_cons, List.length_append, List.length_cons]
      omega

/-- The segments of what is left, before any is walked off. -/
def segments (ps : List Piece) : List (List Char) :=
  (cleaned (ps.map Piece.text)).flatMap pieces

theorem segments_one :
    segments [p] = pieces (dropNewlines (trimEnd p.text)) := List.append_nil _

theorem segments_cons (p q : Piece) (ps : List Piece) :
    segments (p :: q :: ps) = pieces (dropNewlines p.text) ++ segments (q :: ps) :=
  List.flatMap_cons

theorem length_segments (ps : List Piece) : ps.length ≤ (segments ps).length := by
  have h := length_flatMap_pieces (cleaned (ps.map Piece.text))
  rw [length_cleaned, List.length_map] at h
  exact h

theorem weight_segments_le (hps : ∀ p ∈ ps, p.Written) :
    weight (segments ps) ≤ total ps := by
  induction ps with
  | nil => exact Nat.le_refl _
  | cons p ps ih =>
      have hp := hps p List.mem_cons_self
      cases ps with
      | nil =>
          rw [segments_one, total_cons]
          have hle := Piece.weight_le hp (cleaned_sublist p.text) cleaned_same
          omega
      | cons q ps =>
          have hle := Piece.weight_le hp (dropNewlines_sublist p.text) dropNewlines_same
          have hrest := ih fun r hr => hps r (List.mem_cons_of_mem p hr)
          rw [segments_cons, weight_append, total_cons p]
          omega

/-- Nothing lost and nothing split: every piece is intact. -/
theorem intact_of_weight (hps : ∀ p ∈ ps, p.Written)
    (hweight : total ps ≤ weight (segments ps))
    (hlength : (segments ps).length ≤ ps.length)
    (hquery : '?' ∉ join (cleaned (ps.map Piece.text)))
    (hfragment : '#' ∉ join (cleaned (ps.map Piece.text)))
    (hplain : ∀ s ∈ segments ps, Plain s) : Intact ps := by
  induction ps with
  | nil => trivial
  | cons p ps ih =>
      have hp := hps p List.mem_cons_self
      cases ps with
      | nil =>
          rw [segments_one] at hweight hlength hplain
          have hmem : ∀ c, c ∈ dropNewlines (trimEnd p.text) →
              c ∈ join (cleaned ([p].map Piece.text)) := by
            intro c hc
            rw [List.map_cons, List.map_nil, cleaned, join_cons]
            exact List.mem_cons_of_mem _ (List.mem_append_left _ hc)
          rw [total_cons] at hweight
          obtain ⟨hsurvives, heq⟩ := Piece.survives hp (cleaned_sublist p.text)
            cleaned_same dropNewlines_newline (fun h => hquery (hmem _ h))
            (fun h => hfragment (hmem _ h)) (by omega) hlength hplain
          refine ⟨hsurvives, (trimEnd_sublist p.text).antisymm ?_⟩
          have hsub := dropNewlines_sublist (trimEnd p.text)
          rw [heq] at hsub
          exact hsub
      | cons q ps =>
          have hrest : ∀ r ∈ q :: ps, r.Written :=
            fun r hr => hps r (List.mem_cons_of_mem p hr)
          have hle := Piece.weight_le hp (dropNewlines_sublist p.text) dropNewlines_same
          have hrestLe := weight_segments_le hrest
          have hpos := length_pieces_pos (dropNewlines p.text)
          have hrestLength := length_segments (q :: ps)
          rw [segments_cons, weight_append, total_cons p] at hweight
          rw [segments_cons, List.length_append, List.length_cons] at hlength
          rw [segments_cons] at hplain
          have hjoin : join (cleaned ((p :: q :: ps).map Piece.text)) =
              '/' :: (dropNewlines p.text ++
                join (cleaned ((q :: ps).map Piece.text))) := join_cons _ _
          rw [hjoin, List.mem_cons, List.mem_append, not_or, not_or] at hquery hfragment
          obtain ⟨hsurvives, -⟩ := Piece.survives hp (dropNewlines_sublist p.text)
            dropNewlines_same dropNewlines_newline hquery.2.1 hfragment.2.1
            (by omega) (by omega)
            (fun s hs => hplain s (List.mem_append_left _ hs))
          exact ⟨hsurvives, ih hrest (by omega) (by omega) hquery.2.2 hfragment.2.2
            fun s hs => hplain s (List.mem_append_right _ hs)⟩

theorem survives_of_intact (h : Intact ps) : ∀ p ∈ ps, p.Survives := by
  induction ps using Intact.induct with
  | case1 => intro p hp; cases hp
  | case2 p =>
      intro r hr
      rw [List.mem_singleton.1 hr]
      exact h.1
  | case3 p q ps ih =>
      intro r hr
      rcases List.mem_cons.1 hr with rfl | hr
      · exact h.1
      · exact ih h.2 r hr

/-- An intact path is not touched by the cleaning. -/
theorem cleaned_of_intact (h : Intact ps) :
    cleaned (ps.map Piece.text) = ps.map Piece.text := by
  have hnewline : ∀ {p : Piece}, p.Survives → dropNewlines p.text = p.text := fun hp =>
    Piece.dropNewlines_eq fun c hc => Piece.isNewline_of_isOrdinary (hp.ordinary c hc)
  induction ps using Intact.induct with
  | case1 => rfl
  | case2 p =>
      rw [List.map_cons, List.map_nil, cleaned, h.2, hnewline h.1]
  | case3 p q ps ih =>
      rw [List.map_cons, List.map_cons, cleaned, hnewline h.1]
      exact congrArg (p.text :: ·) (ih h.2)

theorem mem_join {c : Char} (h : c ∈ join ts) : c = '/' ∨ ∃ t ∈ ts, c ∈ t := by
  rw [join, List.mem_flatMap] at h
  obtain ⟨t, ht, hc⟩ := h
  rcases List.mem_cons.1 hc with rfl | hc
  · exact .inl rfl
  · exact .inr ⟨t, ht, hc⟩

theorem clean_pieces (hne : ps ≠ []) :
    dropNewlines (trimEnd (join (ps.map Piece.text))) =
      join (cleaned (ps.map Piece.text)) := by
  refine clean_join fun h => hne ?_
  rw [List.map_eq_nil_iff] at h
  exact h

/-- Nothing is lost on the way to the segments only if every piece is intact: what
is found weighs as much as all of the pieces. -/
theorem intact_of_addresses (hset : Spares set) (hne : ps ≠ [])
    (hps : ∀ p ∈ ps, p.Written)
    (h : (parse set (join (ps.map Piece.text))).Addresses (ps.map Piece.value)) :
    Intact ps := by
  obtain ⟨hquery, hfragment, hsegments⟩ := h
  simp only [parse, clean_pieces hne] at hquery hfragment hsegments
  have hhash := notMem_of_cutAt hfragment
  rw [cutAt_of_notMem hhash] at hquery hsegments
  have hmark := notMem_of_cutAt hquery
  simp only [cutAt_of_notMem hmark, pieces_join] at hsegments
  change (resolve [] ((segments ps).map (percentEncode set))).map percentDecode =
    ps.map Piece.value at hsegments
  have htotal : weight (resolve [] ((segments ps).map (percentEncode set))) =
      total ps := by
    have hsum := congrArg (fun l => (l.map fun v => v.length + 1).sum) hsegments
    simp only [List.map_map] at hsum
    exact hsum
  have hle := weight_resolve_le [] ((segments ps).map (percentEncode set))
  have hkept : weight [] + weight ((segments ps).map (percentEncode set)) ≤
      weight (resolve [] ((segments ps).map (percentEncode set))) := by
    have hall := weight_segments_le hps
    rw [weight_nil, htotal, weight_encode hset]
    omega
  have hplain := plain_of_weight hkept
  rw [weight_nil, htotal, weight_encode hset] at hle
  rw [resolve_plain hplain, List.nil_append, List.map_map] at hsegments
  have hlength := congrArg List.length hsegments
  rw [List.length_map, List.length_map] at hlength
  refine intact_of_weight hps (by omega) (by omega) hmark hhash ?_
  intro s hs
  have hs' := hplain _ (List.mem_map_of_mem hs)
  rw [Plain, isSingleDot, isDoubleDot, decode_encode_spares hset] at hs'
  exact hs'

/-- The segments of intact pieces are the pieces. -/
theorem parse_of_intact (hset : Spares set) (hne : ps ≠ []) (h : Intact ps) :
    parse set (join (ps.map Piece.text)) =
      ⟨(ps.map Piece.text).map (percentEncode set), none, none⟩ := by
  have hsurvives := survives_of_intact h
  have hclean := clean_pieces hne
  rw [cleaned_of_intact h] at hclean
  have hno : ∀ c, c ≠ '/' → isOrdinary c = false → c ∉ join (ps.map Piece.text) := by
    intro c hslash hc hmem
    rcases mem_join hmem with rfl | ⟨t, ht, hct⟩
    · exact hslash rfl
    · obtain ⟨p, hp, rfl⟩ := List.mem_map.1 ht
      rw [(hsurvives p hp).ordinary c hct] at hc
      cases hc
  have hpieces : (ps.map Piece.text).flatMap pieces = ps.map Piece.text := by
    rw [List.flatMap_map]
    have hone : ∀ p ∈ ps, pieces p.text = [p.text] := fun p hp =>
      pieces_of_isSlash fun c hc =>
        Piece.isSlash_of_isOrdinary ((hsurvives p hp).ordinary c hc)
    rw [List.flatMap_congr hone]
    exact List.map_eq_flatMap.symm
  have hplain : ∀ s ∈ (ps.map Piece.text).map (percentEncode set), Plain s := by
    intro s hs
    obtain ⟨t, ht, rfl⟩ := List.mem_map.1 hs
    obtain ⟨p, hp, rfl⟩ := List.mem_map.1 ht
    rw [Plain, isSingleDot, isDoubleDot, decode_encode_spares hset]
    exact ⟨(hsurvives p hp).single, (hsurvives p hp).double⟩
  simp only [parse, hclean, cutAt_of_notMem (hno '#' (by decide) (by decide)),
    cutAt_of_notMem (hno '?' (by decide) (by decide)), pieces_join, hpieces]
  rw [resolve_plain hplain, List.nil_append]

/-- The parser finds the pieces of a path again, each as one segment that stands
for its bytes, exactly if all of them are intact. -/
theorem addresses_iff (hset : Spares set) (hne : ps ≠ [])
    (hps : ∀ p ∈ ps, p.Written) :
    (parse set (join (ps.map Piece.text))).Addresses (ps.map Piece.value) ↔
      Intact ps := by
  constructor
  · exact intact_of_addresses hset hne hps
  · intro h
    have hsurvives := survives_of_intact h
    rw [parse_of_intact hset hne h]
    refine ⟨rfl, rfl, ?_⟩
    rw [List.map_map, List.map_map]
    refine List.map_congr_left fun p hp => ?_
    exact (decode_encode_spares hset _).trans (hsurvives p hp).decoded

end

end MatrixIdentityAdmin.Lib.Url
