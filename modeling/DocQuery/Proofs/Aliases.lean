import DocQuery.Proofs.Results

/-!
# Parameters in a query string

A query string is read back by cutting it at `&`, each piece at its first `=`, and decoding what
stands behind.

* `Text.PercentCoded`: the characters of a percent-encoded text.
* `Text.percentDecode?_percentEncode`: decoding undoes encoding, for every text.
* `renderAliases_decodes`: the query string of parameters is read back as their names and texts.
-/

namespace DocQuery

namespace Text

/-! ## Percent-encoding -/

/-- Letters, digits and `_.-~`. -/
def isPlain (c : Char) : Bool :=
  ('A' ≤ c && c ≤ 'Z') || ('a' ≤ c && c ≤ 'z') || ('0' ≤ c && c ≤ '9') || "_.-~".toList.contains c

/-- Digits and the letters `A` to `F`. -/
def isUpperHex (c : Char) : Bool := ('0' ≤ c && c ≤ '9') || ('A' ≤ c && c ≤ 'F')

/-- Plain characters, and `%` with two upper-case hexadecimal digits. -/
inductive PercentCoded : List Char → Prop where
  | nil : PercentCoded []
  | plain {c : Char} {cs : List Char} : isPlain c = true → PercentCoded cs → PercentCoded (c :: cs)
  | byte {h l : Char} {cs : List Char} :
      isUpperHex h = true → isUpperHex l = true → PercentCoded cs →
        PercentCoded ('%' :: h :: l :: cs)

theorem PercentCoded.mem {cs : List Char} (h : PercentCoded cs) {c : Char} (hc : c ∈ cs) :
    isPlain c = true ∨ isUpperHex c = true ∨ c = '%' := by
  induction h with
  | nil => simp at hc
  | plain hplain _ ih =>
    rcases List.mem_cons.1 hc with rfl | hc
    · exact .inl hplain
    · exact ih hc
  | byte hh hl _ ih =>
    simp only [List.mem_cons] at hc
    rcases hc with rfl | rfl | rfl | hc
    · exact .inr (.inr rfl)
    · exact .inr (.inl hh)
    · exact .inr (.inl hl)
    · exact ih hc

theorem hexDigit_spec :
    ∀ n < 16, isUpperHex (hexDigit n) = true ∧ hexValue? (hexDigit n) = some n := by
  decide

theorem unreserved_spec : ∀ n < 128, isUnreserved (UInt8.ofNat n) = true →
    isPlain (Char.ofNat n) = true ∧ Char.ofNat n ≠ '%' ∧ (Char.ofNat n).toNat = n := by
  decide

theorem toNat_lt_of_unreserved {b : UInt8} (h : isUnreserved b = true) : b.toNat < 128 := by
  simp only [isUnreserved, Bool.or_eq_true, Bool.and_eq_true, decide_eq_true_eq, beq_iff_eq] at h
  omega

theorem percentCoded_percentByte (b : UInt8) {cs : List Char} (h : PercentCoded cs) :
    PercentCoded (percentByte b ++ cs) := by
  have hb : b.toNat < 256 := b.toNat_lt
  rw [percentByte]
  split
  · rename_i hu
    have hspec := unreserved_spec b.toNat (toNat_lt_of_unreserved hu) (by rwa [UInt8.ofNat_toNat])
    exact .plain hspec.1 h
  · exact .byte (hexDigit_spec _ (by omega)).1 (hexDigit_spec _ (by omega)).1 h

theorem percentBytes?_plain {c : Char} (hc : c ≠ '%')
    (hu : c.toNat < 256 ∧ isUnreserved (UInt8.ofNat c.toNat) = true) (cs : List Char) :
    percentBytes? (c :: cs) = (percentBytes? cs).map (UInt8.ofNat c.toNat :: ·) := by
  rw [percentBytes?, if_pos hu]
  intro h l cs' heq
  exact absurd heq hc

/-- The characters of one byte are read as that byte, whatever follows. -/
theorem percentBytes?_percentByte (b : UInt8) (cs : List Char) :
    percentBytes? (percentByte b ++ cs) = (percentBytes? cs).map (b :: ·) := by
  have hb : b.toNat < 256 := b.toNat_lt
  rw [percentByte]
  split
  · rename_i hu
    obtain ⟨-, hne, hnat⟩ :=
      unreserved_spec b.toNat (toNat_lt_of_unreserved hu) (by rwa [UInt8.ofNat_toNat])
    have hbyte : UInt8.ofNat (Char.ofNat b.toNat).toNat = b := by rw [hnat, UInt8.ofNat_toNat]
    rw [List.singleton_append, percentBytes?_plain hne ⟨by omega, by rwa [hbyte]⟩, hbyte]
  · have hhi := (hexDigit_spec (b.toNat / 16) (by omega)).2
    have hlo := (hexDigit_spec (b.toNat % 16) (by omega)).2
    have hbyte : UInt8.ofNat (16 * (b.toNat / 16) + b.toNat % 16) = b := by
      rw [Nat.div_add_mod, UInt8.ofNat_toNat]
    simp only [List.cons_append, List.nil_append, percentBytes?, hhi, hlo, Option.bind_eq_bind,
      Option.bind_some, hbyte]
    cases percentBytes? cs <;> rfl

theorem percentBytes?_flatMap (bs : List UInt8) :
    percentBytes? (bs.flatMap percentByte) = some bs := by
  induction bs with
  | nil => rfl
  | cons b bs ih => rw [List.flatMap_cons, percentBytes?_percentByte, ih, Option.map_some]

theorem percentCoded_percentEncode (s : String) : PercentCoded (percentEncode s).toList := by
  rw [percentEncode, String.toList_ofList]
  induction s.toUTF8.data.toList with
  | nil => exact .nil
  | cons b bs ih => exact percentCoded_percentByte b ih

theorem fromUTF8?_toUTF8 (s : String) : String.fromUTF8? s.toUTF8 = some s := by
  rw [String.toUTF8_eq_toByteArray, String.fromUTF8?, dif_pos s.isValidUTF8]
  rfl

/-- Decoding undoes encoding. -/
theorem percentDecode?_percentEncode (s : String) : percentDecode? (percentEncode s) = some s := by
  rw [percentDecode?, percentEncode, String.toList_ofList, percentBytes?_flatMap]
  exact fromUTF8?_toUTF8 s

/-! ## Cutting -/

/-- What stands before the first `sep`, and what stands behind it. -/
def cutFirst? (sep : Char) : List Char → Option (List Char × List Char)
  | [] => none
  | c :: cs => if c = sep then some ([], cs) else (cutFirst? sep cs).map fun (a, b) => (c :: a, b)

theorem cutFirst?_append {sep : Char} {cs : List Char} (h : sep ∉ cs) (rest : List Char) :
    cutFirst? sep (cs ++ sep :: rest) = some (cs, rest) := by
  induction cs with
  | nil => rw [List.nil_append, cutFirst?, if_pos rfl]
  | cons c cs ih =>
    obtain ⟨hc, hcs⟩ := not_or.1 (mt List.mem_cons.2 h)
    rw [List.cons_append, cutFirst?, if_neg (Ne.symm hc), ih hcs]
    rfl

end Text

/-! ## Parameters -/

open Text

/-- The name and the coded value in a piece of a query string. -/
def codedPair? (piece : String) : Option (String × String) :=
  (cutFirst? '=' piece.toList).map fun (name, value) => (String.ofList name, String.ofList value)

/-- The name and the value in a piece of a query string. -/
def decodedPair? (piece : String) : Option (String × String) := do
  let (name, value) ← codedPair? piece
  let text ← percentDecode? value
  return (name, text)

/-- The value of the parameter has a text, if there is a value. -/
def HasText (f : Formatter) (x : String × Option Expr) : Prop :=
  ∀ e, x.2 = some e → ∃ s, e.renderFilter f = .ok s

/-- The text of a parameter's value with its name, if there is a value and its text is not empty. -/
def aliasText? (f : Formatter) (x : String × Option Expr) : Option (String × String) :=
  x.2.bind fun e => match e.renderFilter f with
    | .ok s => if s = "" then none else some (x.1, s)
    | .error _ => none

/-- The piece of a query string for a name and a text. -/
def codePair (x : String × String) : String := x.1 ++ "=" ++ percentEncode x.2

section Pairs

variable {f : Formatter}

theorem exists_of_mem_filterMap {aliases : List (String × Option Expr)} {x : String × String}
    (h : x ∈ aliases.filterMap (aliasText? f)) : ∃ y ∈ aliases, y.1 = x.1 := by
  obtain ⟨⟨name, value⟩, hmem, htext⟩ := List.mem_filterMap.1 h
  obtain ⟨e, rfl, he⟩ := Option.bind_eq_some_iff.1 htext
  refine ⟨_, hmem, ?_⟩
  split at he
  · split at he
    · cases he
    · cases he
      rfl
  · cases he

theorem codedPair?_codePair {x : String × String} (h : '=' ∉ x.1.toList) :
    codedPair? (codePair x) = some (x.1, percentEncode x.2) := by
  have htext : (codePair x).toList = x.1.toList ++ '=' :: (percentEncode x.2).toList := by
    simp [codePair]
  rw [codedPair?, htext, cutFirst?_append h]
  simp

theorem decodedPair?_codePair {x : String × String} (h : '=' ∉ x.1.toList) :
    decodedPair? (codePair x) = some x := by
  rw [decodedPair?, codedPair?_codePair h]
  show (percentDecode? (percentEncode x.2) >>= fun text => some (x.1, text)) = some x
  rw [percentDecode?_percentEncode]
  rfl

theorem amp_not_mem_codePair {x : String × String} (h : '&' ∉ x.1.toList) :
    '&' ∉ (codePair x).toList := by
  have hcode : '&' ∉ (percentEncode x.2).toList := fun hmem =>
    absurd ((percentCoded_percentEncode x.2).mem hmem) (by decide)
  simpa [codePair] using ⟨h, hcode⟩

/-- If every value has a text, then there is a piece for every parameter with a value that is not
empty. -/
theorem aliasPairs_eq {aliases : List (String × Option Expr)} (h : ∀ x ∈ aliases, HasText f x) :
    aliasPairs f aliases = .ok ((aliases.filterMap (aliasText? f)).map codePair) := by
  induction aliases with
  | nil => rfl
  | cons x rest ih =>
    have hrest := ih fun y hy => h y (List.mem_cons_of_mem _ hy)
    obtain ⟨name, value⟩ := x
    cases value with
    | none => rw [aliasPairs, hrest, List.filterMap_cons_none rfl]
    | some e =>
      obtain ⟨s, hs⟩ := h (name, some e) (by simp) e rfl
      have hs' : e.render f .filter = .ok s := hs
      rw [aliasPairs, hs', hrest]
      by_cases hempty : s = ""
      · rw [List.filterMap_cons_none (by simp [aliasText?, hs, hempty])]
        simp [bind, Except.bind, pure, Except.pure, hempty]
      · rw [List.filterMap_cons_some (b := (name, s)) (by simp [aliasText?, hs, hempty])]
        simp [bind, Except.bind, pure, Except.pure, hempty, codePair]

/-- The first value without a text decides the error. -/
theorem aliasPairs_error {before after : List (String × Option Expr)} {name : String} {e : Expr}
    {err : RenderError} (hbefore : ∀ x ∈ before, HasText f x) (he : e.renderFilter f = .error err) :
    aliasPairs f (before ++ (name, some e) :: after) = .error err := by
  induction before with
  | nil =>
    have he' : e.render f .filter = .error err := he
    rw [List.nil_append, aliasPairs, he']
    rfl
  | cons x before ih =>
    have hrest := ih fun y hy => hbefore y (List.mem_cons_of_mem _ hy)
    obtain ⟨name', value⟩ := x
    cases value with
    | none => rw [List.cons_append, aliasPairs, hrest]
    | some e' =>
      obtain ⟨s, hs⟩ := hbefore (name', some e') (by simp) e' rfl
      have hs' : e'.render f .filter = .ok s := hs
      rw [List.cons_append, aliasPairs, hs', hrest]
      rfl

/-- If not every value has a text, then there is a first one without. -/
theorem exists_first_without_text {aliases : List (String × Option Expr)}
    (h : ¬ ∀ x ∈ aliases, HasText f x) :
    ∃ before name e after err, aliases = before ++ (name, some e) :: after ∧
      (∀ x ∈ before, HasText f x) ∧ e.renderFilter f = .error err := by
  induction aliases with
  | nil => simp at h
  | cons x rest ih =>
    by_cases hx : HasText f x
    · have hrest : ¬ ∀ y ∈ rest, HasText f y := fun hall => h (List.forall_mem_cons.2 ⟨hx, hall⟩)
      obtain ⟨before, name, e, after, err, rfl, hbefore, he⟩ := ih hrest
      exact ⟨x :: before, name, e, after, err, rfl, List.forall_mem_cons.2 ⟨hx, hbefore⟩, he⟩
    · obtain ⟨name, value⟩ := x
      cases value with
      | none => exact absurd (fun e he => by cases he) hx
      | some e =>
        cases hrender : e.renderFilter f with
        | ok s =>
          refine absurd (fun e' he' => ?_) hx
          cases he'
          exact ⟨s, hrender⟩
        | error err => exact ⟨[], name, e, rest, err, rfl, by simp, hrender⟩

/-- Joined pieces are cut and decoded one by one. -/
theorem decode_codePairs {entries : List (String × String)} (hne : entries ≠ [])
    (hname : ∀ x ∈ entries, '&' ∉ x.1.toList ∧ '=' ∉ x.1.toList) :
    (pieces '&' ("&".intercalate (entries.map codePair))).map decodedPair? = entries.map some ∧
      ∀ piece ∈ pieces '&' ("&".intercalate (entries.map codePair)),
        ∃ name value, codedPair? piece = some (name, value) ∧ PercentCoded value.toList := by
  have hpieces : pieces '&' ("&".intercalate (entries.map codePair)) = entries.map codePair := by
    refine pieces_intercalate rfl (by simpa using hne) fun p hp => ?_
    obtain ⟨x, hx, rfl⟩ := List.mem_map.1 hp
    exact amp_not_mem_codePair (hname x hx).1
  rw [hpieces]
  refine ⟨?_, fun piece hpiece => ?_⟩
  · rw [List.map_map]
    exact List.map_congr_left fun x hx => decodedPair?_codePair (hname x hx).2
  · obtain ⟨x, hx, rfl⟩ := List.mem_map.1 hpiece
    exact ⟨x.1, percentEncode x.2, codedPair?_codePair (hname x hx).2,
      percentCoded_percentEncode x.2⟩

end Pairs

/-- If every value has a text, then the parameters have a query string, unless no value is left once
those with an empty text are dropped.  The query string is read back as the names and texts that are
left, in order, and its values are percent-encoded.  Otherwise the first value without a text
decides the error. -/
theorem renderAliases_decodes {f : Formatter} {aliases : List (String × Option Expr)}
    (hnames : ∀ x ∈ aliases, '&' ∉ x.1.toList ∧ '=' ∉ x.1.toList) :
    ((∀ x ∈ aliases, HasText f x) →
      ∃ query, renderAliases f aliases = .ok query ∧
        (query = none ↔ aliases.filterMap (aliasText? f) = []) ∧ ∀ q, query = some q →
          (pieces '&' q).map decodedPair? = (aliases.filterMap (aliasText? f)).map some ∧
          ∀ piece ∈ pieces '&' q, ∃ name value, codedPair? piece = some (name, value) ∧
            PercentCoded value.toList) ∧
    ((¬ ∀ x ∈ aliases, HasText f x) →
      ∃ before name e after err, aliases = before ++ (name, some e) :: after ∧
        (∀ x ∈ before, HasText f x) ∧
        e.renderFilter f = .error err ∧ renderAliases f aliases = .error err) := by
  refine ⟨fun htexts => ?_, fun htexts => ?_⟩
  · have hname : ∀ x ∈ aliases.filterMap (aliasText? f), '&' ∉ x.1.toList ∧ '=' ∉ x.1.toList := by
      intro x hx
      obtain ⟨y, hy, hxy⟩ := exists_of_mem_filterMap hx
      exact hxy ▸ hnames y hy
    rw [renderAliases, aliasPairs_eq htexts]
    by_cases hempty : aliases.filterMap (aliasText? f) = []
    · rw [hempty]
      exact ⟨none, rfl, by simp, by simp⟩
    · refine ⟨some ("&".intercalate ((aliases.filterMap (aliasText? f)).map codePair)), ?_,
        by simp [hempty], ?_⟩
      · simp [bind, Except.bind, pure, Except.pure, hempty]
      · intro q hq
        cases hq
        exact decode_codePairs hempty hname
  · obtain ⟨before, name, e, after, err, rfl, hbefore, he⟩ := exists_first_without_text htexts
    refine ⟨before, name, e, after, err, rfl, hbefore, he, ?_⟩
    rw [renderAliases, aliasPairs_error hbefore he]
    rfl

/-- A text with separators, a parameter without value, a value without text and letters outside
ASCII. -/
def sampleAliases : List (String × Option Expr) :=
  [("p1", some (.lit (.text "a&b=c %"))), ("p2", none), ("p3", some .it),
    ("p4", some (.prop "Größe"))]

theorem hasText_sampleAliases : ∀ x ∈ sampleAliases, HasText .default x := by
  simp only [sampleAliases, List.forall_mem_cons, HasText]
  refine ⟨?_, ?_, ?_, ?_, by simp⟩ <;> intro e he <;> cases he
  · exact ⟨_, rfl⟩
  · exact ⟨_, rfl⟩
  · exact ⟨_, rfl⟩

theorem renderAliases_decodes_sample :
    renderAliases .default sampleAliases =
      .ok (some "p1=%27a%26b%3Dc%20%25%27&p4=c.Gr%C3%B6%C3%9Fe") ∧
      (pieces '&' "p1=%27a%26b%3Dc%20%25%27&p4=c.Gr%C3%B6%C3%9Fe").map decodedPair? =
        [some ("p1", "'a&b=c %'"), some ("p4", "c.Größe")] := by
  have hquery : renderAliases .default sampleAliases =
      .ok (some "p1=%27a%26b%3Dc%20%25%27&p4=c.Gr%C3%B6%C3%9Fe") := by rfl
  obtain ⟨query, hquery', -, hdecode⟩ :=
    (@renderAliases_decodes .default sampleAliases (by decide)).1 hasText_sampleAliases
  rw [hquery] at hquery'
  exact ⟨hquery, (hdecode _ (Except.ok.inj hquery').symm).1⟩

end DocQuery
