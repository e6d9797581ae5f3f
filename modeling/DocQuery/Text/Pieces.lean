/-!
# Splitting at a character

`pieces sep s` lists the stretches of `s` between the characters `sep`, empty ones included.

* `SplitsInto sep s ps`: the texts `ps` have no `sep` in them, and with one between any two of them
  they are `s`.
* `pieces_eq_iff`: the pieces are the only such texts; there is at least one.
-/

namespace DocQuery.Text

/-- The stretches between the characters `sep`. -/
def splitChars (sep : Char) : List Char → List (List Char)
  | [] => [[]]
  | c :: cs =>
    if c = sep then [] :: splitChars sep cs
    else match splitChars sep cs with
      | [] => [[c]]
      | p :: ps => (c :: p) :: ps

/-- The stretches of a text between the characters `sep`. -/
def pieces (sep : Char) (s : String) : List String := (splitChars sep s.toList).map String.ofList

theorem splitChars_ne_nil (sep : Char) (cs : List Char) : splitChars sep cs ≠ [] := by
  cases cs with
  | nil => simp [splitChars]
  | cons c cs =>
    rw [splitChars]
    split
    · simp
    · split <;> simp

theorem splitChars_of_not_mem {sep : Char} {cs : List Char} (h : sep ∉ cs) :
    splitChars sep cs = [cs] := by
  induction cs with
  | nil => rfl
  | cons c cs ih =>
    obtain ⟨hc, hcs⟩ := not_or.1 (mt List.mem_cons.2 h)
    rw [splitChars, if_neg (Ne.symm hc), ih hcs]

theorem splitChars_append {sep : Char} {cs : List Char} (h : sep ∉ cs) (rest : List Char) :
    splitChars sep (cs ++ sep :: rest) = cs :: splitChars sep rest := by
  induction cs with
  | nil => rw [List.nil_append, splitChars, if_pos rfl]
  | cons c cs ih =>
    obtain ⟨hc, hcs⟩ := not_or.1 (mt List.mem_cons.2 h)
    rw [List.cons_append, splitChars, if_neg (Ne.symm hc), ih hcs]

theorem intercalate_splitChars (sep : Char) (cs : List Char) :
    [sep].intercalate (splitChars sep cs) = cs := by
  induction cs with
  | nil => rfl
  | cons c cs ih =>
    obtain ⟨p, ps, hps⟩ := List.exists_cons_of_ne_nil (splitChars_ne_nil sep cs)
    rw [hps] at ih
    rw [splitChars, hps]
    by_cases hc : c = sep
    · rw [if_pos hc, List.intercalate_cons_cons, ih, hc]
      rfl
    · rw [if_neg hc]
      cases ps with
      | nil => simpa using ih
      | cons q qs =>
        rw [List.intercalate_cons_cons] at ih ⊢
        rw [← ih]
        rfl

theorem not_mem_splitChars {sep : Char} {cs p : List Char} (h : p ∈ splitChars sep cs) :
    sep ∉ p := by
  induction cs generalizing p with
  | nil => simp_all [splitChars]
  | cons c cs ih =>
    obtain ⟨q, qs, hqs⟩ := List.exists_cons_of_ne_nil (splitChars_ne_nil sep cs)
    rw [hqs] at ih
    rw [splitChars, hqs] at h
    by_cases hc : c = sep
    · rw [if_pos hc] at h
      rcases List.mem_cons.1 h with rfl | hp
      · simp
      · exact ih hp
    · rw [if_neg hc] at h
      rcases List.mem_cons.1 h with rfl | hp
      · simp [Ne.symm hc, ih List.mem_cons_self]
      · exact ih (List.mem_cons_of_mem _ hp)

/-- Texts without the separator are the pieces of the text that joins them. -/
theorem pieces_intercalate {sep : Char} {joint : String} (hjoint : joint.toList = [sep])
    {ps : List String} (hne : ps ≠ []) (h : ∀ p ∈ ps, sep ∉ p.toList) :
    pieces sep (joint.intercalate ps) = ps := by
  induction ps with
  | nil => exact absurd rfl hne
  | cons p ps ih =>
    have hp := h p (by simp)
    cases ps with
    | nil =>
      rw [String.intercalate_singleton, pieces, splitChars_of_not_mem hp, List.map_singleton,
        String.ofList_toList]
    | cons q qs =>
      have htext : (joint.intercalate (p :: q :: qs)).toList =
          p.toList ++ sep :: (joint.intercalate (q :: qs)).toList := by
        simp [hjoint]
      rw [pieces, htext, splitChars_append hp, List.map_cons, String.ofList_toList]
      exact congrArg (p :: ·) (ih (by simp) fun x hx => h x (List.mem_cons_of_mem _ hx))

/-- The texts are the stretches of `s` between the characters `sep`. -/
structure SplitsInto (sep : Char) (s : String) (ps : List String) : Prop where
  ne_nil : ps ≠ []
  not_mem : ∀ p ∈ ps, sep ∉ p.toList
  join_eq : (String.singleton sep).intercalate ps = s

theorem splitsInto_pieces (sep : Char) (s : String) : SplitsInto sep s (pieces sep s) where
  ne_nil := by simp [pieces, splitChars_ne_nil]
  not_mem p hp := by
    obtain ⟨q, hq, rfl⟩ := List.mem_map.1 hp
    rw [String.toList_ofList]
    exact not_mem_splitChars hq
  join_eq := by
    rw [← String.toList_inj, String.toList_intercalate, pieces, List.map_map]
    simpa [Function.comp_def] using intercalate_splitChars sep s.toList

/-- There is one way to split a text. -/
theorem pieces_eq_iff {sep : Char} {s : String} {ps : List String} :
    pieces sep s = ps ↔ SplitsInto sep s ps := by
  constructor
  · rintro rfl
    exact splitsInto_pieces sep s
  · rintro ⟨hne, hsep, rfl⟩
    exact pieces_intercalate (by simp) hne hsep

end DocQuery.Text
