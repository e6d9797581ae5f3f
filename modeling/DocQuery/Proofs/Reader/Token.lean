import DocQuery.Render.Precedence
import DocQuery.Text.Quoted
import Mathlib.Tactic.SplitIfs

/-!
# The words of a condition

`scan cs` cuts the text of a condition into tokens.  A single quote toggles a quoted stretch, which
is opaque; outside of quotes the space, the parentheses, the comma and the colon separate words.

* `Token.ofWord`: the operator that a word stands for, or the word itself.
* `isOneWord`: no separator stands outside of the quotes, and the quotes are even.
* `Lexes cs ts`: before whatever ends a word, `cs` is cut into the tokens `ts`.  One lemma for each
  way in which texts are put together says how their tokens are.
-/

namespace DocQuery

/-- The operator that a word of a condition stands for. -/
def BinaryOp.ofSymbol? : String → Option BinaryOp
  | "OR" => some .or | "AND" => some .and
  | "=" => some .eq | "!=" => some .ne
  | ">" => some .gt | ">=" => some .ge | "<" => some .lt | "<=" => some .le
  | _ => none

/-- The operator that a word stands for before its operand. -/
def UnaryOp.ofSymbol? : String → Option UnaryOp
  | "not" | "NOT" => some .not
  | "-" => some .negate
  | _ => none

/-- Does the word stand for an operator? -/
def isOperatorWord (s : String) : Bool :=
  (BinaryOp.ofSymbol? s).isSome || (UnaryOp.ofSymbol? s).isSome

/-- A piece of a condition.  `calling` is a word with the parenthesis that follows it directly. -/
inductive Token where
  | word (text : String)
  | binary (op : BinaryOp)
  | unary (op : UnaryOp)
  | opening
  | calling (name : String)
  | closing
  | comma
  | colon
  deriving DecidableEq, Repr

/-- The token of a word. -/
def Token.ofWord (s : String) : Token :=
  match BinaryOp.ofSymbol? s with
  | some op => .binary op
  | none => match UnaryOp.ofSymbol? s with
    | some op => .unary op
    | none => .word s

theorem Token.ofWord_of_not_operator {s : String} (h : isOperatorWord s = false) :
    Token.ofWord s = .word s := by
  obtain ⟨h1, h2⟩ : BinaryOp.ofSymbol? s = none ∧ UnaryOp.ofSymbol? s = none := by
    simpa [isOperatorWord] using h
  simp [Token.ofWord, h1, h2]

/-- Every symbol that is written is read as its operator. -/
theorem BinaryOp.ofSymbol?_of_symbol? {op : BinaryOp} {s : String} (h : op.symbol? = some s) :
    BinaryOp.ofSymbol? s = some op := by
  cases op <;> simp only [symbol?, Option.some.injEq, reduceCtorEq] at h <;> subst h <;> rfl

/-- The words that stand for operators. -/
def operatorWords : List String := ["OR", "AND", "=", "!=", ">", ">=", "<", "<=", "not", "NOT", "-"]

theorem mem_operatorWords {s : String} (h : isOperatorWord s = true) : s ∈ operatorWords := by
  rw [isOperatorWord, Bool.or_eq_true] at h
  rcases h with h | h
  · unfold BinaryOp.ofSymbol? at h
    split at h <;> simp_all [operatorWords]
  · unfold UnaryOp.ofSymbol? at h
    split at h <;> simp_all [operatorWords]

/-- No word for an operator has a slash, a point, a bracket or a quote in it. -/
theorem not_operator_of_mem {s : String} {c : Char} (hc : c ∈ ['/', '.', '[', '\''])
    (h : c ∈ s.toList) : isOperatorWord s = false := by
  rw [← Bool.not_eq_true]
  intro hop
  have hall : ∀ w ∈ operatorWords, ∀ d ∈ ['/', '.', '[', '\''], d ∉ w.toList := by
    simp [operatorWords]
  exact hall s (mem_operatorWords hop) c hc h

/-! ## Cutting -/

/-- The characters that separate words. -/
def isSeparator (c : Char) : Bool := c == ' ' || c == '(' || c == ')' || c == ',' || c == ':'

/-- The token of a word that has ended, if there is a word. -/
def finished (word : List Char) : List Token :=
  if word.isEmpty then [] else [.ofWord (String.ofList word)]

theorem finished_word {s : String} (hne : s ≠ "") (hop : isOperatorWord s = false) :
    finished s.toList = [.word s] := by
  simp [finished, hne, Token.ofWord_of_not_operator hop]

/-- The tokens of a word, if there is one, and the parenthesis behind it. -/
def opened (word : List Char) : List Token :=
  match finished word with
  | [.word name] => [.calling name]
  | ts => ts ++ [.opening]

/-- The tokens of a word, if there is one, and the separator behind it. -/
def cutAt (word : List Char) (c : Char) : List Token :=
  if c = '(' then opened word
  else if c = ')' then finished word ++ [.closing]
  else if c = ',' then finished word ++ [.comma]
  else if c = ':' then finished word ++ [.colon]
  else finished word

/-- The tokens of the text that is left when `word` has been read of the current word. -/
def scanFrom (word : List Char) (quoted : Bool) : List Char → Option (List Token)
  | [] => if quoted then none else some (finished word)
  | c :: cs =>
    if c = '\'' then scanFrom (word ++ [c]) (!quoted) cs
    else if quoted || !isSeparator c then scanFrom (word ++ [c]) quoted cs
    else (scanFrom [] false cs).map (cutAt word c ++ ·)

/-- The tokens of a text; there are none if a quote is left open. -/
def scan (cs : List Char) : Option (List Token) := scanFrom [] false cs

/-! ## Words -/

/-- Is there no separator outside of quotes, from inside or outside of them up to the end outside of
them? -/
def isOneWord (quoted : Bool) : List Char → Bool
  | [] => !quoted
  | c :: cs =>
    if c = '\'' then isOneWord (!quoted) cs
    else (quoted || !isSeparator c) && isOneWord quoted cs

/-- The text is one word, and does not stand for an operator. -/
structure IsLeafWord (s : String) : Prop where
  ne_empty : s ≠ ""
  oneWord : isOneWord false s.toList = true
  not_operator : isOperatorWord s = false

/-- The text is one word without quotes. -/
structure IsUnquotedWord (s : String) : Prop where
  ne_empty : s ≠ ""
  no_separator : ∀ c ∈ s.toList, isSeparator c = false
  no_quote : '\'' ∉ s.toList

/-- The text names a function or a range variable: a word without quote or slash that does not stand
for an operator. -/
structure IsNameWord (s : String) : Prop extends IsUnquotedWord s where
  no_slash : '/' ∉ s.toList
  not_operator : isOperatorWord s = false

theorem isOneWord_append {a b : List Char} {q : Bool} (ha : isOneWord q a = true)
    (hb : isOneWord false b = true) : isOneWord q (a ++ b) = true := by
  induction a generalizing q with
  | nil =>
    have hq : q = false := by simpa [isOneWord] using ha
    simpa [hq] using hb
  | cons c a ih =>
    by_cases hc : c = '\''
    · simp only [isOneWord, List.cons_append, if_pos hc] at ha ⊢
      exact ih ha
    · simp only [isOneWord, List.cons_append, if_neg hc, Bool.and_eq_true] at ha ⊢
      exact ⟨ha.1, ih ha.2⟩

theorem isOneWord_of_unquoted {cs : List Char} (hs : ∀ c ∈ cs, isSeparator c = false)
    (hq : '\'' ∉ cs) : isOneWord false cs = true := by
  induction cs with
  | nil => rfl
  | cons c cs ih =>
    have hc : c ≠ '\'' := fun he => hq (by simp [he])
    have hrest : isOneWord false cs = true :=
      ih (fun d hd => hs d (List.mem_cons_of_mem _ hd)) (fun h => hq (List.mem_cons_of_mem _ h))
    simp [isOneWord, hc, hs c (by simp), hrest]

/-- Between quotes, a text without quotes may hold anything. -/
theorem isOneWord_quoted {cs : List Char} (hq : '\'' ∉ cs) :
    isOneWord false ('\'' :: (cs ++ ['\''])) = true := by
  have inside : isOneWord true (cs ++ ['\'']) = true := by
    induction cs with
    | nil => rfl
    | cons c cs ih =>
      have hc : c ≠ '\'' := fun he => hq (by simp [he])
      simpa [isOneWord, hc] using ih (fun h => hq (List.mem_cons_of_mem _ h))
  simpa [isOneWord] using inside

/-- Doubled quotes leave a quoted stretch and enter it again. -/
theorem isOneWord_doubleQuotes (cs : List Char) :
    isOneWord true (Text.doubleQuotes cs ++ ['\'']) = true := by
  induction cs with
  | nil => rfl
  | cons c cs ih =>
    by_cases hc : c = '\''
    · simpa [Text.doubleQuotes, isOneWord, hc] using ih
    · simpa [Text.doubleQuotes, isOneWord, hc] using ih

/-- A word with a slash, a point, a bracket or a quote in it does not stand for an operator. -/
theorem isLeafWord_of_mem {s : String} {c : Char} (hc : c ∈ ['/', '.', '[', '\''])
    (hmem : c ∈ s.toList) (hone : isOneWord false s.toList = true) : IsLeafWord s where
  ne_empty := by
    rintro rfl
    simp at hmem
  oneWord := hone
  not_operator := not_operator_of_mem hc hmem

/-! ## Tokens of texts put together -/

/-- What ends a word without opening a parenthesis: the end of the text, or a separator. -/
def Stops : List Char → Prop
  | [] => True
  | c :: _ => isSeparator c = true ∧ c ≠ '('

/-- Before whatever ends a word, `cs` is cut into `ts`, and the rest is cut as if it stood alone. -/
def Lexes (cs : List Char) (ts : List Token) : Prop :=
  ∀ rest, Stops rest → scan (cs ++ rest) = (scan rest).map (ts ++ ·)

theorem ne_quote_of_isSeparator {c : Char} (h : isSeparator c = true) : c ≠ '\'' := by
  rintro rfl
  simp [isSeparator] at h

theorem scanFrom_separator {c : Char} (hc : isSeparator c = true) (w cs : List Char) :
    scanFrom w false (c :: cs) = (scan cs).map (cutAt w c ++ ·) := by
  rw [scanFrom, if_neg (ne_quote_of_isSeparator hc), if_neg (by simp [hc]), scan]

theorem scan_separator {c : Char} (hc : isSeparator c = true) (cs : List Char) :
    scan (c :: cs) = (scan cs).map (cutAt [] c ++ ·) :=
  scanFrom_separator hc [] cs

/-- A separator that opens nothing adds its own token to that of the word before it. -/
theorem cutAt_eq {c : Char} (hc : c ≠ '(') (w : List Char) :
    cutAt w c = finished w ++ cutAt [] c := by
  simp only [cutAt, if_neg hc]
  split_ifs <;> simp [finished]

/-- The characters of one word are collected, whatever follows. -/
theorem scanFrom_oneWord {cs : List Char} {q : Bool} (h : isOneWord q cs = true)
    (w rest : List Char) : scanFrom w q (cs ++ rest) = scanFrom (w ++ cs) false rest := by
  induction cs generalizing q w with
  | nil =>
    have hq : q = false := by simpa [isOneWord] using h
    simp [hq]
  | cons c cs ih =>
    by_cases hc : c = '\''
    · rw [isOneWord, if_pos hc] at h
      rw [List.cons_append, scanFrom, if_pos hc, ih h]
      simp
    · rw [isOneWord, if_neg hc, Bool.and_eq_true] at h
      rw [List.cons_append, scanFrom, if_neg hc, if_pos h.1, ih h.2]
      simp

theorem lexes_oneWord {cs : List Char} (h : isOneWord false cs = true) :
    Lexes cs (finished cs) := by
  intro rest hrest
  rw [scan, scanFrom_oneWord h, List.nil_append]
  cases rest with
  | nil => simp [scan, scanFrom, finished]
  | cons c rest =>
    obtain ⟨hc, hp⟩ := hrest
    rw [scanFrom_separator hc, scan_separator hc, cutAt_eq hp, Option.map_map]
    simp [Function.comp_def]

theorem lexes_leafWord {s : String} (h : IsLeafWord s) : Lexes s.toList [.word s] :=
  finished_word h.ne_empty h.not_operator ▸ lexes_oneWord h.oneWord

/-- Two texts with a separator between them that opens nothing. -/
theorem lexes_separated {a b : List Char} {ts us : List Token} {c : Char}
    (hc : isSeparator c = true) (hp : c ≠ '(') (ha : Lexes a ts) (hb : Lexes b us) :
    Lexes (a ++ c :: b) (ts ++ (cutAt [] c ++ us)) := by
  intro rest hrest
  have hstop : Stops (c :: (b ++ rest)) := ⟨hc, hp⟩
  rw [List.append_assoc, List.cons_append, ha _ hstop, scan_separator hc, hb rest hrest]
  simp [Function.comp_def]

/-- A text in parentheses, directly behind a word or behind nothing. -/
theorem lexes_enclosed {w a : List Char} {ts : List Token} (hw : isOneWord false w = true)
    (ha : Lexes a ts) : Lexes (w ++ '(' :: (a ++ [')'])) (opened w ++ (ts ++ [.closing])) := by
  intro rest _
  have hopen : scan (w ++ '(' :: (a ++ (')' :: rest))) =
      (scan (a ++ ')' :: rest)).map (opened w ++ ·) := by
    rw [scan, scanFrom_oneWord hw, List.nil_append, scanFrom_separator (by decide)]
    simp [cutAt]
  have hclose : scan (')' :: rest) = (scan rest).map (Token.closing :: ·) := by
    rw [scan_separator (by decide)]
    simp [cutAt, finished]
  have hstop : Stops (')' :: rest) := ⟨by decide, by decide⟩
  simp only [List.append_assoc, List.cons_append, List.nil_append]
  rw [hopen, ha _ hstop, hclose]
  simp [Function.comp_def]

theorem lexes_nil : Lexes [] [] := by
  intro rest _
  simp

end DocQuery
