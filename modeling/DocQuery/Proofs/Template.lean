import DocQuery.Render.Basic

/-!
# Templates

A template is a text with holes, such as the text of an expression in which the word for negation is
left open.

* `Template.fill` puts a word into every hole; `Template.exists_pieces` tells the pieces of text
  between the words.
* `Template.IsTrimmed`: a word that trimming leaves as it is, wherever it stands.
* `Template.WordHoles`: every hole is a word of its own, as the characters next to it tell.
* `Template.Word`: a word in a template, fixed or left open.
* `Template.getElem?_spell`: with two words of the same length in the holes, two texts differ inside
  the holes only.
-/

namespace DocQuery

/-- A text with holes. -/
abbrev Template := List (Option Char)

namespace Template

open Text (isBlank)

/-- The text without holes. -/
def ofText (s : String) : Template := s.toList.map some

/-- The characters of the text with a word in every hole. -/
def spell (word : List Char) (m : Template) : List Char :=
  m.flatMap fun
    | some c => [c]
    | none => word

/-- The text with a word in every hole. -/
def fill (word : String) (m : Template) : String := String.ofList (spell word.toList m)

/-- How many holes there are. -/
def holes (m : Template) : Nat := m.count none

@[simp] theorem spell_nil (word : List Char) : spell word [] = [] := rfl

@[simp] theorem spell_some (word : List Char) (c : Char) (m : Template) :
    spell word (some c :: m) = c :: spell word m := rfl

@[simp] theorem spell_none (word : List Char) (m : Template) :
    spell word (none :: m) = word ++ spell word m := rfl

@[simp] theorem spell_append (word : List Char) (a b : Template) :
    spell word (a ++ b) = spell word a ++ spell word b :=
  List.flatMap_append

@[simp] theorem spell_ofText (word : List Char) (s : String) :
    spell word (ofText s) = s.toList := by
  rw [ofText, spell, List.flatMap_map]
  exact List.flatMap_singleton' _

@[simp] theorem toList_fill (word : String) (m : Template) :
    (fill word m).toList = spell word.toList m := by
  simp [fill]

@[simp] theorem fill_append (word : String) (a b : Template) :
    fill word (a ++ b) = fill word a ++ fill word b :=
  String.toList_inj.1 (by simp)

@[simp] theorem fill_ofText (word s : String) : fill word (ofText s) = s :=
  String.toList_inj.1 (by simp)

@[simp] theorem fill_hole (word : String) (m : Template) :
    fill word (none :: m) = word ++ fill word m :=
  String.toList_inj.1 (by simp)

@[simp] theorem holes_append (a b : Template) : holes (a ++ b) = holes a + holes b :=
  List.count_append

@[simp] theorem holes_ofText (s : String) : holes (ofText s) = 0 := by
  simp [holes, ofText, List.count_eq_zero]

@[simp] theorem holes_hole (m : Template) : holes (none :: m) = holes m + 1 := by
  simp [holes]

/-! ## Trimming -/

/-- Is the slot a blank character? -/
def isBlankSlot (x : Option Char) : Bool := x.any isBlank

/-- Drop the blanks at both ends. -/
def trim (m : Template) : Template :=
  ((m.dropWhile isBlankSlot).reverse.dropWhile isBlankSlot).reverse

/-- The word has characters, and neither the first nor the last of them is blank. -/
structure IsTrimmed (word : List Char) : Prop where
  ne_nil : word ≠ []
  head_not_blank : ∀ c, word.head? = some c → isBlank c = false
  last_not_blank : ∀ c, word.getLast? = some c → isBlank c = false

theorem IsTrimmed.reverse {word : List Char} (h : IsTrimmed word) : IsTrimmed word.reverse :=
  ⟨by simpa using h.ne_nil, by simpa using h.last_not_blank, by simpa using h.head_not_blank⟩

theorem isTrimmed_of_strip {s : String} (hs : Text.strip s = s) (hne : s ≠ "") :
    IsTrimmed s.toList := by
  obtain ⟨hhead, hlast⟩ := Text.strip_eq_self_iff.1 hs
  exact ⟨fun hnil => hne (String.toList_eq_nil_iff.1 hnil), hhead, hlast⟩

theorem spell_reverse (word : List Char) (m : Template) :
    (spell word m).reverse = spell word.reverse m.reverse := by
  induction m with
  | nil => rfl
  | cons x m ih => cases x <;> simp [ih]

/-- A word that starts with no blank stops the trimming, and so does a hole for it. -/
theorem dropWhile_spell {word : List Char} (hword : IsTrimmed word) (m : Template) :
    (spell word m).dropWhile isBlank = spell word (m.dropWhile isBlankSlot) := by
  induction m with
  | nil => rfl
  | cons x m ih =>
    cases x with
    | some c => by_cases hc : isBlank c = true <;> simp [isBlankSlot, hc, ih]
    | none =>
      obtain ⟨c, rest, rfl⟩ := List.exists_cons_of_ne_nil hword.ne_nil
      have hc : isBlank c = false := hword.head_not_blank c rfl
      simp [isBlankSlot, hc]

theorem strip_fill {word : String} (hword : IsTrimmed word.toList) (m : Template) :
    Text.strip (fill word m) = fill word (trim m) := by
  have htrim : Text.trim (spell word.toList m) = spell word.toList (trim m) := by
    rw [Text.trim, Text.trimEnd, dropWhile_spell hword, spell_reverse,
      dropWhile_spell hword.reverse, spell_reverse, List.reverse_reverse, trim]
  rw [Text.strip, toList_fill, htrim, fill]

theorem exists_trim (m : Template) :
    ∃ front back, m = front ++ trim m ++ back ∧ (∀ x ∈ front, isBlankSlot x = true) ∧
      ∀ x ∈ back, isBlankSlot x = true :=
  Text.exists_dropWhile_ends isBlankSlot m

theorem holes_trim (m : Template) : holes (trim m) = holes m := by
  obtain ⟨front, back, hm, hfront, hback⟩ := exists_trim m
  have hnone : ∀ l : Template, (∀ x ∈ l, isBlankSlot x = true) → holes l = 0 := by
    intro l hl
    refine List.count_eq_zero.2 fun hmem => ?_
    simpa [isBlankSlot] using hl none hmem
  have hcount := congrArg holes hm
  rw [holes_append, holes_append, hnone front hfront, hnone back hback] at hcount
  omega

/-! ## Words -/

/-- What may stand before a word. -/
def opening : Template := ofText " (,:="

/-- What may stand behind a word. -/
def closing : Template := ofText " (."

/-- A word may follow. -/
def Opens (m : Template) : Prop := ∀ x, m.getLast? = some x → x ∈ opening

/-- A word may stand before it. -/
def Closes (m : Template) : Prop := ∃ x ∈ closing, m.head? = some x

/-- Every hole is a word of its own. -/
def WordHoles (m : Template) : Prop :=
  ∀ before after, m = before ++ none :: after → Opens before ∧ Closes after

theorem Opens.of_append {a b : Template} (h : Opens (a ++ b)) : Opens b := by
  intro x hx
  exact h x (by rw [List.getLast?_append, hx, Option.some_or])

theorem Opens.append {a b : Template} (ha : b = [] → Opens a) (hb : Opens b) : Opens (a ++ b) := by
  intro x hx
  cases hlast : b.getLast? with
  | none =>
    rw [List.getLast?_append, hlast, Option.none_or] at hx
    exact ha (List.getLast?_eq_none_iff.1 hlast) x hx
  | some y =>
    rw [List.getLast?_append, hlast, Option.some_or] at hx
    exact hb x (hlast.trans hx)

theorem Closes.append {a : Template} (h : Closes a) (b : Template) : Closes (a ++ b) := by
  obtain ⟨x, hx, hhead⟩ := h
  exact ⟨x, hx, by rw [List.head?_append, hhead, Option.some_or]⟩

theorem not_mem_ofText (s : String) : none ∉ ofText s := by
  simp [ofText]

theorem wordHoles_ofText (s : String) : WordHoles (ofText s) := by
  intro before after h
  exact absurd (h ▸ by simp : none ∈ ofText s) (not_mem_ofText s)

/-- A hole in a text that is put together is a hole of one part. -/
theorem WordHoles.append {a b : Template} (ha : WordHoles a) (hb : WordHoles b)
    (h : b.head? = some none → Opens a) : WordHoles (a ++ b) := by
  intro before after heq
  rcases List.append_eq_append_iff.1 heq with ⟨mid, rfl, hmid⟩ | ⟨mid, rfl, hmid⟩
  · obtain ⟨hopens, hcloses⟩ := hb mid after hmid
    refine ⟨Opens.append (fun hnil => h ?_) hopens, hcloses⟩
    rw [hmid, hnil]
    rfl
  · cases mid with
    | nil =>
      rw [List.nil_append] at hmid
      rw [List.append_nil] at h
      exact ⟨h (by rw [← hmid]; rfl), (hb [] after hmid.symm).2⟩
    | cons x mid =>
      obtain ⟨rfl, rfl⟩ := List.cons_eq_cons.1 hmid
      obtain ⟨hopens, hcloses⟩ := ha before mid rfl
      exact ⟨hopens, hcloses.append b⟩

theorem WordHoles.append_ofText {m : Template} (h : WordHoles m) (s : String) :
    WordHoles (m ++ ofText s) := by
  refine h.append (wordHoles_ofText s) fun hhead => ?_
  exact absurd (List.mem_of_head? hhead) (not_mem_ofText s)

theorem WordHoles.ofText_append {m : Template} (h : WordHoles m) {s : String}
    (hs : Opens (ofText s)) : WordHoles (ofText s ++ m) :=
  (wordHoles_ofText s).append h fun _ => hs

/-- A new hole in front needs a text behind it that lets the word end. -/
theorem WordHoles.hole {m : Template} (h : WordHoles m) (hm : Closes m) :
    WordHoles (none :: m) := by
  intro before after heq
  cases before with
  | nil =>
    cases heq
    exact ⟨by simp [Opens], hm⟩
  | cons x before =>
    obtain ⟨rfl, rfl⟩ := List.cons_eq_cons.1 heq
    obtain ⟨hopens, hcloses⟩ := h before after rfl
    refine ⟨Opens.append (a := [none]) (fun hnil => ?_) hopens, hcloses⟩
    obtain ⟨x, hx, hhead⟩ := hm
    rw [hnil] at hhead
    cases hhead
    exact absurd hx (not_mem_ofText _)

/-- Once the blanks are dropped, a point ends the word that may now be last. -/
theorem WordHoles.trim_append {m : Template} (h : WordHoles m) (s : String) :
    WordHoles (trim m ++ ofText ("." ++ s)) := by
  obtain ⟨front, back, hm, -⟩ := exists_trim m
  intro before after heq
  rcases List.append_eq_append_iff.1 heq with ⟨mid, -, hmid⟩ | ⟨mid, hbefore, hmid⟩
  · exact absurd (hmid ▸ by simp : none ∈ ofText ("." ++ s)) (not_mem_ofText _)
  · cases mid with
    | nil =>
      rw [List.nil_append] at hmid
      exact absurd (hmid ▸ by simp : none ∈ ofText ("." ++ s)) (not_mem_ofText _)
    | cons x mid =>
      obtain ⟨rfl, rfl⟩ := List.cons_eq_cons.1 hmid
      have hwhole : m = (front ++ before) ++ none :: (mid ++ back) := by
        rw [hm, hbefore]
        simp
      obtain ⟨hopens, x, hx, hhead⟩ := h _ _ hwhole
      refine ⟨hopens.of_append, ?_⟩
      cases mid with
      | nil => exact ⟨some '.', by simp [closing, ofText], by simp [ofText]⟩
      | cons y mid => exact ⟨x, hx, hhead⟩

/-! ## Putting templates together -/

/-- The template in parentheses. -/
def enclosed (m : Template) : Template := ofText "(" ++ m ++ ofText ")"

theorem fill_enclosed (word : String) (m : Template) :
    fill word (enclosed m) = parens (fill word m) := by
  rw [enclosed, fill_append, fill_append, fill_ofText, fill_ofText, parens]

theorem holes_enclosed (m : Template) : holes (enclosed m) = holes m := by
  simp [enclosed]

theorem WordHoles.enclosed {m : Template} (h : WordHoles m) : WordHoles (enclosed m) :=
  (h.ofText_append (by simp [Opens, ofText, opening])).append_ofText _

/-- The template of an operand, in parentheses if they are needed. -/
def operand (wrap : Bool) (m : Template) : Template := if wrap then enclosed m else m

theorem operandText_fill {e : Expr} {op : BinaryOp} {wrap : Bool} (h : needsParens e op = .ok wrap)
    (word : String) (m : Template) :
    operandText e op (fill word m) = .ok (fill word (operand wrap m)) := by
  rw [operandText, h]
  cases wrap with
  | false => rfl
  | true =>
    rw [operand, if_pos rfl, fill_enclosed]
    rfl

theorem holes_operand (wrap : Bool) (m : Template) : holes (operand wrap m) = holes m := by
  cases wrap with
  | false => rfl
  | true => exact holes_enclosed m

theorem WordHoles.operand {m : Template} (h : WordHoles m) (wrap : Bool) :
    WordHoles (operand wrap m) := by
  cases wrap with
  | false => exact h
  | true => exact WordHoles.enclosed h

/-- What stands behind a unary operator. -/
def unaryTail (atomic : Bool) (m : Template) : Template :=
  if atomic then ofText " " ++ m else enclosed m

theorem append_fill_unaryTail (token word : String) (atomic : Bool) (m : Template) :
    token ++ fill word (unaryTail atomic m) =
      if atomic then token ++ " " ++ fill word m else token ++ parens (fill word m) := by
  cases atomic with
  | false => simp [unaryTail, fill_enclosed]
  | true => simp [unaryTail, String.append_assoc]

theorem holes_unaryTail (atomic : Bool) (m : Template) : holes (unaryTail atomic m) = holes m := by
  cases atomic with
  | false => exact holes_enclosed m
  | true => simp [unaryTail]

theorem closes_unaryTail (atomic : Bool) (m : Template) : Closes (unaryTail atomic m) := by
  cases atomic with
  | false => exact ⟨some '(', by simp [closing, ofText], by simp [unaryTail, enclosed, ofText]⟩
  | true => exact ⟨some ' ', by simp [closing, ofText], by simp [unaryTail, ofText]⟩

theorem WordHoles.unaryTail {m : Template} (h : WordHoles m) (atomic : Bool) :
    WordHoles (unaryTail atomic m) := by
  cases atomic with
  | false => exact WordHoles.enclosed h
  | true => exact h.ofText_append (by simp [Opens, ofText, opening])

theorem fill_eq_empty {word : String} (hword : IsTrimmed word.toList) {m : Template} :
    fill word m = "" ↔ m = [] := by
  constructor
  · intro h
    have hspell : spell word.toList m = [] := by
      rw [← toList_fill, h]
      rfl
    cases m with
    | nil => rfl
    | cons x m =>
      cases x with
      | some c => simp at hspell
      | none => exact absurd (List.append_eq_nil_iff.1 hspell).1 hword.ne_nil
  · rintro rfl
    rfl

/-! ## Words that may be left open -/

/-- A word in a template: left open, or fixed. -/
inductive Word where
  | hole
  | fixed (s : String)

namespace Word

/-- Is the word left open? -/
def isHole : Word → Bool
  | .hole => true
  | .fixed _ => false

/-- The word as a template. -/
def template : Word → Template
  | .hole => [none]
  | .fixed s => ofText s

theorem holes_template (w : Word) : holes w.template = w.isHole.toNat := by
  cases w with
  | hole => rfl
  | fixed s => exact holes_ofText s

/-- A word in front needs a text behind it that lets the word end. -/
theorem wordHoles_append (w : Word) {m : Template} (h : WordHoles m) (hm : Closes m) :
    WordHoles (w.template ++ m) := by
  cases w with
  | hole => exact h.hole hm
  | fixed s =>
    refine (wordHoles_ofText s).append h fun hhead => ?_
    obtain ⟨x, hx, hx'⟩ := hm
    rw [hhead] at hx'
    cases hx'
    exact absurd hx (not_mem_ofText _)

end Word

/-- The template of a name that is reached from a source, or from the start if the source is
empty. -/
def access (start : Word) (name : String) (m : Template) : Template :=
  (if m = [] then start.template else trim m) ++ ofText ("." ++ Text.strip name)

section Access

variable {word : String} {start : Word}

/-- A source is spelled by the empty text if it has an empty template, and trimming leaves the words
in its holes alone. -/
theorem fill_access {root : RootAlias} (hword : IsTrimmed word.toList)
    (hstart : fill word start.template = root.text) (name : String) (m : Template) :
    fill word (access start name m) = Formatter.access ⟨.documentDB, root⟩ (fill word m) name := by
  rw [access, Formatter.access, fill_append, fill_ofText, ← String.append_assoc]
  by_cases hm : m = []
  · rw [if_pos hm, if_pos ((fill_eq_empty hword).2 hm), hstart]
    rfl
  · rw [if_neg hm, if_neg fun h => hm ((fill_eq_empty hword).1 h), ← strip_fill hword]
    rfl

theorem holes_access (name : String) (m : Template) :
    holes (access start name m) = holes m + if m = [] then start.isHole.toNat else 0 := by
  rw [access, holes_append, holes_ofText, Nat.add_zero]
  by_cases hm : m = []
  · rw [if_pos hm, if_pos hm, start.holes_template, hm]
    exact (Nat.zero_add _).symm
  · rw [if_neg hm, if_neg hm, holes_trim, Nat.add_zero]

theorem WordHoles.access {m : Template} (h : WordHoles m) (name : String) :
    WordHoles (access start name m) := by
  rw [Template.access]
  split
  · exact start.wordHoles_append (wordHoles_ofText _)
      ⟨some '.', by simp [closing, ofText], by simp [ofText]⟩
  · exact h.trim_append _

end Access

/-! ## Lists -/

theorem wordHoles_intercalate {ms : List Template} (h : ∀ m ∈ ms, WordHoles m) :
    WordHoles ((ofText ",").intercalate ms) := by
  induction ms with
  | nil => exact wordHoles_ofText ""
  | cons m ms ih =>
    have hm := h m (by simp)
    cases ms with
    | nil => simpa using hm
    | cons m' ms =>
      rw [List.intercalate_cons_cons, List.append_assoc]
      refine hm.append ((ih fun x hx => h x (List.mem_cons_of_mem _ hx)).ofText_append ?_) ?_
      · simp [Opens, ofText, opening]
      · simp [ofText]

theorem fill_intercalate (word sep : String) (ms : List Template) :
    fill word ((ofText sep).intercalate ms) = sep.intercalate (ms.map (fill word)) := by
  induction ms with
  | nil => rfl
  | cons m ms ih =>
    cases ms with
    | nil => simp
    | cons m' ms => simp [List.intercalate_cons_cons, ih, String.append_assoc]

theorem holes_intercalate (sep : String) (ms : List Template) :
    holes ((ofText sep).intercalate ms) = holes ms.flatten := by
  induction ms with
  | nil => rfl
  | cons m ms ih =>
    cases ms with
    | nil => simp
    | cons m' ms => simp [List.intercalate_cons_cons, ih]

/-- The pieces of text between the words: one more than there are words. -/
theorem exists_pieces (m : Template) :
    ∃ pieces : List String, pieces.length = holes m + 1 ∧
      ∀ word, fill word m = word.intercalate pieces := by
  induction m with
  | nil => exact ⟨[""], rfl, fun word => by simp [fill]⟩
  | cons x m ih =>
    obtain ⟨pieces, hlength, hfill⟩ := ih
    cases x with
    | none =>
      refine ⟨"" :: pieces, by rw [List.length_cons, hlength, holes_hole], fun word => ?_⟩
      obtain ⟨p, ps, rfl⟩ := List.exists_cons_of_length_eq_add_one hlength
      rw [fill_hole, hfill, String.intercalate_cons_cons, String.empty_append]
    | some c =>
      obtain ⟨p, ps, rfl⟩ := List.exists_cons_of_length_eq_add_one hlength
      refine ⟨(String.singleton c ++ p) :: ps, by simpa [holes] using hlength, fun word => ?_⟩
      have hchar : fill word (some c :: m) = String.singleton c ++ fill word m :=
        String.toList_inj.1 (by simp)
      rw [hchar, hfill, String.intercalate_cons_append]

/-! ## Two words for the holes -/

variable {u v : List Char}

theorem length_spell (h : u.length = v.length) (m : Template) :
    (spell u m).length = (spell v m).length := by
  induction m with
  | nil => rfl
  | cons x m ih => cases x <;> simp [ih, h]

/-- With words of the same length in the holes, two texts differ inside the holes only. -/
theorem getElem?_spell (h : u.length = v.length) (m : Template) (i : Nat) :
    (spell u m)[i]? = (spell v m)[i]? ∨
      ∃ before after j, m = before ++ none :: after ∧ j < u.length ∧
        i = (spell u before).length + j ∧ (spell u m)[i]? = u[j]? ∧ (spell v m)[i]? = v[j]? := by
  induction m generalizing i with
  | nil => exact .inl rfl
  | cons x m ih =>
    cases x with
    | some c =>
      cases i with
      | zero => exact .inl rfl
      | succ i =>
        rcases ih i with heq | ⟨before, after, j, rfl, hj, rfl, hu, hv⟩
        · exact .inl (by simpa using heq)
        · refine .inr ⟨some c :: before, after, j, rfl, hj, by simp; omega, ?_, ?_⟩
          · simpa using hu
          · simpa using hv
    | none =>
      rw [spell_none, spell_none]
      by_cases hi : i < u.length
      · refine .inr ⟨[], m, i, rfl, hi, by simp, ?_, ?_⟩
        · exact List.getElem?_append_left hi
        · exact List.getElem?_append_left (h ▸ hi)
      · have hu : (u ++ spell u m)[i]? = (spell u m)[i - u.length]? :=
          List.getElem?_append_right (Nat.le_of_not_lt hi)
        have hv : (v ++ spell v m)[i]? = (spell v m)[i - u.length]? := by
          rw [h]
          exact List.getElem?_append_right (h ▸ Nat.le_of_not_lt hi)
        rw [hu, hv]
        rcases ih (i - u.length) with heq | ⟨before, after, j, rfl, hj, hij, hju, hjv⟩
        · exact .inl heq
        · exact .inr ⟨none :: before, after, j, rfl, hj, by simp; omega, hju, hjv⟩

/-- With two words of the same length in the holes, the texts are equal exactly if there is no
hole. -/
theorem spell_eq_iff (h : u.length = v.length) (hne : u ≠ v) (m : Template) :
    spell u m = spell v m ↔ holes m = 0 := by
  constructor
  · intro heq
    refine List.count_eq_zero.2 fun hmem => ?_
    obtain ⟨before, after, rfl⟩ := List.append_of_mem hmem
    rw [spell_append, spell_append, spell_none, spell_none] at heq
    have hrest := (List.append_inj heq (length_spell h before)).2
    exact hne (List.append_inj hrest h).1
  · intro hholes
    induction m with
    | nil => rfl
    | cons x m ih =>
      cases x with
      | some c => rw [spell_some, spell_some, ih (by simpa [holes] using hholes)]
      | none => simp at hholes

end Template

end DocQuery
