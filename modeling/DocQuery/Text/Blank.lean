/-!
# Blank characters

* `isBlank c`: the characters that count as white space around a name.
* `strip s`: `s` without its leading and trailing blanks; `stripStart s` keeps the trailing ones.
* `isBlankText s`: nothing is left of `s` once it is stripped (`strip_eq_empty_iff`).

Only blanks are dropped (`exists_trim`).  A text is stripped if it neither starts nor ends with a
blank (`strip_eq_self_iff`), so stripping twice is stripping once (`strip_strip`), and stripped
texts in a row are stripped (`strip_append`).
-/

namespace DocQuery.Text

/-- White space: the ASCII controls TAB to CR and FS to US, the space, NEL, and the Unicode space,
line and paragraph separators. -/
def isBlank (c : Char) : Bool :=
  let n := c.toNat
  (9 ≤ n && n ≤ 13) || (28 ≤ n && n ≤ 32) || n == 0x85 || n == 0xA0 || n == 0x1680 ||
    (0x2000 ≤ n && n ≤ 0x200A) || n == 0x2028 || n == 0x2029 || n == 0x202F || n == 0x205F ||
    n == 0x3000

/-- Drop the trailing blanks. -/
def trimEnd (cs : List Char) : List Char := (cs.reverse.dropWhile isBlank).reverse

/-- Drop the blanks at both ends. -/
def trim (cs : List Char) : List Char := trimEnd (cs.dropWhile isBlank)

/-- The text without leading blanks. -/
def stripStart (s : String) : String := String.ofList (s.toList.dropWhile isBlank)

/-- The text without leading and trailing blanks. -/
def strip (s : String) : String := String.ofList (trim s.toList)

/-- Is the text empty or made of blanks only? -/
def isBlankText (s : String) : Bool := s.toList.all isBlank

/-! ## Stripping -/

/-- What is dropped at both ends of a list satisfies the condition for dropping it. -/
theorem exists_dropWhile_ends {α : Type} (p : α → Bool) (l : List α) :
    ∃ front back, l = front ++ ((l.dropWhile p).reverse.dropWhile p).reverse ++ back ∧
      (∀ x ∈ front, p x = true) ∧ ∀ x ∈ back, p x = true := by
  refine ⟨l.takeWhile p, ((l.dropWhile p).reverse.takeWhile p).reverse, ?_, ?_, ?_⟩
  · rw [List.append_assoc, ← List.reverse_append, List.takeWhile_append_dropWhile,
      List.reverse_reverse, List.takeWhile_append_dropWhile]
  · intro x hx
    exact List.all_eq_true.1 List.all_takeWhile x hx
  · intro x hx
    exact List.all_eq_true.1 List.all_takeWhile x (List.mem_reverse.1 hx)

/-- Only blanks are dropped. -/
theorem exists_trim (cs : List Char) :
    ∃ front back, cs = front ++ trim cs ++ back ∧ (∀ c ∈ front, isBlank c = true) ∧
      ∀ c ∈ back, isBlank c = true :=
  exists_dropWhile_ends isBlank cs

theorem mem_of_mem_trim {cs : List Char} {c : Char} (h : c ∈ trim cs) : c ∈ cs := by
  obtain ⟨front, back, hcs, -, -⟩ := exists_trim cs
  rw [hcs]
  exact List.mem_append_left back (List.mem_append_right front h)

/-- What is left does not start with a blank. -/
theorem isBlank_of_head?_trim {cs : List Char} {c : Char} (h : (trim cs).head? = some c) :
    isBlank c = false := by
  -- Trailing blanks are dropped from a list that already starts with `c`.
  obtain ⟨back, hback⟩ : trim cs <+: cs.dropWhile isBlank := by
    rw [trim, trimEnd, ← List.reverse_suffix, List.reverse_reverse]
    exact List.dropWhile_suffix isBlank
  have hhead := List.head?_dropWhile_not isBlank cs
  rw [← hback, List.head?_append, h] at hhead
  simpa using hhead

/-- What is left does not end with a blank. -/
theorem isBlank_of_getLast?_trim {cs : List Char} {c : Char} (h : (trim cs).getLast? = some c) :
    isBlank c = false := by
  have hhead := List.head?_dropWhile_not isBlank (cs.dropWhile isBlank).reverse
  rw [trim, trimEnd, List.getLast?_reverse] at h
  simpa [h] using hhead

/-- Nothing is dropped if neither the first nor the last character is blank. -/
theorem trim_eq_self {cs : List Char} (hhead : ∀ c, cs.head? = some c → isBlank c = false)
    (hlast : ∀ c, cs.getLast? = some c → isBlank c = false) : trim cs = cs := by
  obtain ⟨front, back, hcs, hfront, hback⟩ := exists_trim cs
  generalize trim cs = rest at hcs
  subst hcs
  -- A blank at either end would be the first or the last character.
  have hfront' : front = [] := by
    rw [← List.head?_eq_none_iff, Option.eq_none_iff_forall_ne_some]
    intro c hc
    have hblank := hfront c (List.mem_of_head? hc)
    simp [hhead c (by simp [hc])] at hblank
  have hback' : back = [] := by
    rw [← List.getLast?_eq_none_iff, Option.eq_none_iff_forall_ne_some]
    intro c hc
    have hblank := hback c (List.mem_of_getLast? hc)
    simp [hlast c (by simp [hc])] at hblank
  rw [hfront', hback', List.append_nil, List.nil_append]

/-- Nothing is left exactly if all the characters are blank. -/
theorem trim_eq_nil {cs : List Char} : trim cs = [] ↔ cs.all isBlank = true := by
  rw [List.all_eq_true]
  constructor
  · intro h c hc
    obtain ⟨front, back, hcs, hfront, hback⟩ := exists_trim cs
    rw [hcs, h, List.append_nil, List.mem_append] at hc
    exact hc.elim (hfront c) (hback c)
  · intro h
    rw [← List.head?_eq_none_iff, Option.eq_none_iff_forall_ne_some]
    intro c hc
    have hblank := h c (mem_of_mem_trim (List.mem_of_head? hc))
    simp [isBlank_of_head?_trim hc] at hblank

/-- A text is trimmed if neither its first nor its last character is blank. -/
theorem strip_eq_self_iff {s : String} :
    strip s = s ↔
      (∀ c, s.toList.head? = some c → isBlank c = false) ∧
        ∀ c, s.toList.getLast? = some c → isBlank c = false := by
  rw [strip, ← String.toList_inj, String.toList_ofList]
  constructor
  · intro h
    rw [← h]
    exact ⟨fun c hc => isBlank_of_head?_trim hc, fun c hc => isBlank_of_getLast?_trim hc⟩
  · rintro ⟨hhead, hlast⟩
    exact trim_eq_self hhead hlast

@[simp] theorem strip_strip (s : String) : strip (strip s) = strip s := by
  rw [strip_eq_self_iff, strip, String.toList_ofList]
  exact ⟨fun c hc => isBlank_of_head?_trim hc, fun c hc => isBlank_of_getLast?_trim hc⟩

/-- Trimmed texts in a row are trimmed. -/
theorem strip_append {s t : String} (hs : strip s = s) (ht : strip t = t) :
    strip (s ++ t) = s ++ t := by
  obtain ⟨hshead, hslast⟩ := strip_eq_self_iff.1 hs
  obtain ⟨hthead, htlast⟩ := strip_eq_self_iff.1 ht
  rw [strip_eq_self_iff, String.toList_append, List.head?_append, List.getLast?_append]
  constructor
  · intro c hc
    rcases Option.or_eq_some_iff.1 hc with hc | ⟨-, hc⟩
    · exact hshead c hc
    · exact hthead c hc
  · intro c hc
    rcases Option.or_eq_some_iff.1 hc with hc | ⟨-, hc⟩
    · exact htlast c hc
    · exact hslast c hc

theorem strip_eq_empty_iff {s : String} : strip s = "" ↔ isBlankText s = true := by
  rw [isBlankText, ← trim_eq_nil, strip, ← String.toList_inj, String.toList_ofList]
  simp

theorem isBlankText_strip (s : String) : isBlankText (strip s) = isBlankText s := by
  rw [Bool.eq_iff_iff, ← strip_eq_empty_iff, strip_strip, strip_eq_empty_iff]

theorem mem_of_mem_strip {s : String} {c : Char} (h : c ∈ (strip s).toList) : c ∈ s.toList := by
  rw [strip, String.toList_ofList] at h
  exact mem_of_mem_trim h

end DocQuery.Text
