import BlockScript.Json.Basic
import BlockScript.Proofs.Number.ReadBack

/-!
# Printed values read back

A reader of JSON takes one character after the other. What it is inside of, it keeps in frames, and
each value that has ended goes to the innermost frame. The reader knows nothing of the printer: it
takes any blanks between the parts of a value, refuses a bracket right behind a comma, and takes a
number without dot and exponent for a natural one. (It reads a few numbers too many, such as `01`,
and no pairs of surrogates.)

Reading what was printed, in either layout, gives the same value (`read?_render`). Each lemma on the
way is about any frames below, and any text behind.
-/

namespace BlockScript

namespace Json

/-! ## The reader -/

/-- What a reader is inside of. -/
inductive Frame
  /-- An array with these items so far. -/
  | array (items : List Json)
  /-- An object with these fields so far, where a key is due. -/
  | object (fields : List (String × Json))
  /-- The field with this key, behind those fields. -/
  | field (fields : List (String × Json)) (key : String)

/-- What a reader is in the middle of. -/
inductive Phase
  /-- A value is due, or a key. -/
  | start
  /-- The rest of a word, and the value that the word stands for. -/
  | word (letters : List Char) (value : Json)
  | number (letters : List Char)
  | text (content : List Char)
  /-- Behind the backslash of an escape. -/
  | escape (content : List Char)
  /-- The number of a character, of which so many digits are left. -/
  | code (content : List Char) (left value : Nat)
  /-- Behind a key. -/
  | colon
  /-- Behind a value. -/
  | done (value : Json)

/-- A reader between two characters. -/
structure Reader where
  frames : List Frame
  phase : Phase

/-- Blanks may stand between any two parts of a value. -/
def isSpace (c : Char) : Bool := [' ', '\n', '\r', '\t'].contains c

def isNumberChar (c : Char) : Bool := c.isDigit || ['-', '+', '.', 'e', 'E'].contains c

/-- A number without dot and exponent is a natural one; of the others, only finite ones are read. -/
def readNumber? (letters : List Char) : Option Json :=
  if letters.all Char.isDigit then some (.natural (Nat.ofDigitChars 10 letters 0))
  else (Binary64.ofText? letters).bind fun x =>
    if finite : x.isFinite then some (.number x finite) else none

/-- The value of a hexadecimal digit, in either case. -/
def hexValue? (c : Char) : Option Nat :=
  (List.range 16).find? fun value => Nat.digitChar value == c.toLower

/-- The character that an escape of two characters stands for. -/
def escaped? (c : Char) : Option Char :=
  match c with
  | '"' | '\\' | '/' => some c
  | 'n' => some '\n'
  | 'r' => some '\r'
  | 't' => some '\t'
  | 'b' => some '\x08'
  | 'f' => some '\x0c'
  | _ => none

namespace Reader

/-- The first character of a value. -/
def value? (frames : List Frame) (c : Char) : Option Reader :=
  if c = '-' ∨ c.isDigit then some ⟨frames, .number [c]⟩
  else match c with
    | 'n' => some ⟨frames, .word ['u', 'l', 'l'] .null⟩
    | 't' => some ⟨frames, .word ['r', 'u', 'e'] (.bool true)⟩
    | 'f' => some ⟨frames, .word ['a', 'l', 's', 'e'] (.bool false)⟩
    | '"' => some ⟨frames, .text []⟩
    | '[' => some ⟨.array [] :: frames, .start⟩
    | '{' => some ⟨.object [] :: frames, .start⟩
    | _ => none

/-- A character where a value or a key is due. Only what is still empty can end there. -/
def start? (frames : List Frame) (c : Char) : Option Reader :=
  if isSpace c then some ⟨frames, .start⟩
  else match frames with
    | .array [] :: below =>
        if c = ']' then some ⟨below, .done (.array [])⟩ else value? frames c
    | .object fields :: below =>
        if c = '"' then some ⟨frames, .text []⟩
        else if c = '}' ∧ fields.isEmpty then some ⟨below, .done (.object [])⟩
        else none
    | _ => value? frames c

/-- A character behind a value, which goes to the innermost frame. -/
def behind? (frames : List Frame) (value : Json) (c : Char) : Option Reader :=
  if isSpace c then some ⟨frames, .done value⟩
  else match frames, c with
    | .array items :: below, ',' => some ⟨.array (items ++ [value]) :: below, .start⟩
    | .array items :: below, ']' => some ⟨below, .done (.array (items ++ [value]))⟩
    | .field fields key :: below, ',' => some ⟨.object (fields ++ [(key, value)]) :: below, .start⟩
    | .field fields key :: below, '}' => some ⟨below, .done (.object (fields ++ [(key, value)]))⟩
    | _, _ => none

/-- Behind the second quote of a text, which is a key or a value. -/
def closeText (frames : List Frame) (content : List Char) : Reader :=
  match frames with
  | .object fields :: below => ⟨.field fields (String.ofList content) :: below, .colon⟩
  | _ => ⟨frames, .done (.text (String.ofList content))⟩

/-- The reader behind one more character. -/
def step? : Reader → Char → Option Reader
  | ⟨frames, .start⟩, c => start? frames c
  | ⟨_, .word [] _⟩, _ => none
  | ⟨frames, .word (letter :: letters) value⟩, c =>
      if c = letter then some ⟨frames, if letters.isEmpty then .done value else .word letters value⟩
      else none
  | ⟨frames, .number letters⟩, c =>
      if isNumberChar c then some ⟨frames, .number (letters ++ [c])⟩
      else (readNumber? letters).bind fun value => behind? frames value c
  | ⟨frames, .text content⟩, c =>
      if c = '"' then some (closeText frames content)
      else if c = '\\' then some ⟨frames, .escape content⟩
      else if c.toNat < 0x20 then none
      else some ⟨frames, .text (content ++ [c])⟩
  | ⟨frames, .escape content⟩, c =>
      if c = 'u' then some ⟨frames, .code content 4 0⟩
      else (escaped? c).map fun c => ⟨frames, .text (content ++ [c])⟩
  | ⟨frames, .code content left value⟩, c =>
      (hexValue? c).bind fun digit =>
        let value := 16 * value + digit
        if left ≠ 1 then some ⟨frames, .code content (left - 1) value⟩
        else if value.isValidChar then some ⟨frames, .text (content ++ [Char.ofNat value])⟩
        else none
  | ⟨frames, .colon⟩, c =>
      if isSpace c then some ⟨frames, .colon⟩
      else if c = ':' then some ⟨frames, .start⟩
      else none
  | ⟨frames, .done value⟩, c => behind? frames value c

/-- The value of a text that ends here. -/
def finish? : Reader → Option Json
  | ⟨[], .done value⟩ => some value
  | ⟨[], .number letters⟩ => readNumber? letters
  | _ => none

/-- The value that a reader gives at the end of a text. -/
def run? : List Char → Reader → Option Json
  | [], reader => reader.finish?
  | c :: rest, reader => (reader.step? c).bind (run? rest)

end Reader

/-- The value of a JSON text, if it is one. -/
def read? (text : String) : Option Json := Reader.run? text.toList ⟨[], .start⟩

/-! ## Leaves -/

namespace Reader

variable {frames : List Frame} {rest : List Char}

theorem run?_cons {reader next : Reader} {c : Char} (stepped : reader.step? c = some next) :
    run? (c :: rest) reader = run? rest next := by
  rw [run?, stepped, Option.bind_some]

/-- Blanks change nothing in a phase in which they are passed. -/
theorem run?_spaces {reader : Reader} {spaces : List Char} (blank : ∀ c ∈ spaces, isSpace c)
    (passes : ∀ c, isSpace c → reader.step? c = some reader) :
    run? (spaces ++ rest) reader = run? rest reader := by
  induction spaces with
  | nil => rfl
  | cons c spaces ih =>
    obtain ⟨here, others⟩ := List.forall_mem_cons.mp blank
    rw [List.cons_append, run?_cons (passes c here), ih others]

theorem run?_word (letter : Char) (letters : List Char) (value : Json) :
    run? (letter :: letters ++ rest) ⟨frames, .word (letter :: letters) value⟩ =
      run? rest ⟨frames, .done value⟩ := by
  induction letters generalizing letter with
  | nil => exact run?_cons (by simp [step?])
  | cons next letters ih =>
    rw [← ih next]
    exact run?_cons (by simp [step?])

theorem run?_numberChars {front letters : List Char} (valid : ∀ c ∈ letters, isNumberChar c) :
    run? (letters ++ rest) ⟨frames, .number front⟩ =
      run? rest ⟨frames, .number (front ++ letters)⟩ := by
  induction letters generalizing front with
  | nil => rw [List.append_nil, List.nil_append]
  | cons c letters ih =>
    obtain ⟨here, others⟩ := List.forall_mem_cons.mp valid
    rw [List.cons_append, run?_cons (by rw [step?, if_pos here]), ih others, List.append_assoc,
      List.singleton_append]

/-- A number ends at the end of the text, or in front of what is no part of a number. -/
theorem run?_readNumber {letters : List Char} {value : Json} (known : readNumber? letters = some value)
    (stops : ∀ c ∈ rest.head?, ¬ isNumberChar c) :
    run? rest ⟨frames, .number letters⟩ = run? rest ⟨frames, .done value⟩ := by
  cases rest with
  | nil =>
    cases frames with
    | nil => exact known
    | cons frame below => rfl
  | cons c rest =>
    have stop : ¬ isNumberChar c := stops c rfl
    have same : step? ⟨frames, .number letters⟩ c = step? ⟨frames, .done value⟩ c := by
      rw [step?, if_neg stop, known, Option.bind_some, step?]
    rw [run?, run?, same]

/-! ### Texts -/

theorem hexValue?_hexDigit (value : Nat) : hexValue? (hexDigit value) = some (value % 16) := by
  have known : ∀ digit < 16, hexValue? (Nat.digitChar digit) = some digit := by decide
  exact known _ (Nat.mod_lt _ (by decide))

/-- A control character is written as its number, of four digits. -/
theorem run?_code {c : Char} (control : c.toNat < 0x20) (front : List Char) :
    run? (['\\', 'u', '0', '0', hexDigit (c.toNat / 16), hexDigit c.toNat] ++ rest)
      ⟨frames, .text front⟩ = run? rest ⟨frames, .text (front ++ [c])⟩ := by
  have digit : step? ⟨frames, .code front 2 0⟩ (hexDigit (c.toNat / 16)) =
      some ⟨frames, .code front 1 (c.toNat / 16)⟩ := by
    have small : c.toNat / 16 % 16 = c.toNat / 16 := by omega
    simp [step?, hexValue?_hexDigit, small]
  have last : step? ⟨frames, .code front 1 (c.toNat / 16)⟩ (hexDigit c.toNat) =
      some ⟨frames, .text (front ++ [c])⟩ := by
    have value : 16 * (c.toNat / 16) + c.toNat % 16 = c.toNat := by omega
    have valid : c.toNat.isValidChar := c.valid
    simp [step?, hexValue?_hexDigit, value, valid]
  calc run? (['\\', 'u', '0', '0', hexDigit (c.toNat / 16), hexDigit c.toNat] ++ rest)
        ⟨frames, .text front⟩
    _ = run? (hexDigit (c.toNat / 16) :: hexDigit c.toNat :: rest) ⟨frames, .code front 2 0⟩ := rfl
    _ = run? (hexDigit c.toNat :: rest) ⟨frames, .code front 1 (c.toNat / 16)⟩ := run?_cons digit
    _ = run? rest ⟨frames, .text (front ++ [c])⟩ := run?_cons last

/-- A character that is written as an escape, or as itself, is read as it was. -/
theorem run?_escape (c : Char) (front : List Char) :
    run? (Json.escape c ++ rest) ⟨frames, .text front⟩ =
      run? rest ⟨frames, .text (front ++ [c])⟩ := by
  by_cases named : c ∈ ['"', '\\', '\n', '\r', '\t', '\x08', '\x0c']
  · simp only [List.mem_cons, List.not_mem_nil, or_false] at named
    rcases named with rfl | rfl | rfl | rfl | rfl | rfl | rfl <;> rfl
  simp only [List.mem_cons, List.not_mem_nil, or_false, not_or] at named
  obtain ⟨noQuote, noBackslash, noFeed, noReturn, noTab, noBack, noPage⟩ := named
  simp only [Json.escape, noQuote, noBackslash, noFeed, noReturn, noTab, noBack, noPage, if_false]
  by_cases control : c.toNat < 0x20
  · rw [if_pos control]
    exact run?_code control front
  · rw [if_neg control]
    refine run?_cons ?_
    simp only [step?, noQuote, noBackslash, control, if_false]

theorem run?_content (content front : List Char) :
    run? (content.flatMap Json.escape ++ '"' :: rest) ⟨frames, .text front⟩ =
      run? rest (closeText frames (front ++ content)) := by
  induction content generalizing front with
  | nil =>
    rw [List.append_nil]
    exact run?_cons rfl
  | cons c content ih =>
    rw [List.flatMap_cons, List.append_assoc, run?_escape, ih, List.append_assoc,
      List.singleton_append]

/-- A text may start wherever its first quote is taken. -/
theorem run?_quoted (text : String)
    (opens : step? ⟨frames, .start⟩ '"' = some ⟨frames, .text []⟩) :
    run? (quoted text ++ rest) ⟨frames, .start⟩ = run? rest (closeText frames text.toList) := by
  have whole : quoted text ++ rest =
      '"' :: (text.toList.flatMap Json.escape ++ '"' :: rest) := by simp [quoted]
  rw [whole, run?_cons opens, run?_content, List.nil_append]

/-! ### Numbers -/

theorem isNumberChar_of_isDigit {c : Char} (digit : c.isDigit) : isNumberChar c := by
  rw [isNumberChar, digit, Bool.true_or]

theorem isNumberChar_of_isDigits {digits : List Char} (valid : IsDigits digits) :
    ∀ c ∈ digits, isNumberChar c :=
  fun c mem => isNumberChar_of_isDigit (valid.digit c mem)

theorem isNumberChar_zeros (count : Nat) : ∀ c ∈ List.replicate count '0', isNumberChar c :=
  fun _ mem => isNumberChar_of_isDigit (isDigit_of_mem_replicate count mem)

theorem isNumberChar_positional (layout : Layout) (decimal : Decimal) :
    ∀ c ∈ layout.positional decimal, isNumberChar c := by
  have numerals := isNumberChar_of_isDigits (isDigits_numerals decimal)
  have dot : isNumberChar '.' := rfl
  have zero : isNumberChar '0' := rfl
  unfold Layout.positional
  dsimp only
  split
  · refine List.forall_mem_append.mpr
      ⟨List.forall_mem_append.mpr ⟨numerals, isNumberChar_zeros _⟩, ?_⟩
    split <;> simp [dot, zero]
  split
  · refine List.forall_mem_append.mpr ⟨fun c mem => numerals c (List.mem_of_mem_take mem), ?_⟩
    exact List.forall_mem_cons.mpr ⟨dot, fun c mem => numerals c (List.mem_of_mem_drop mem)⟩
  · refine List.forall_mem_append.mpr ⟨?_, numerals⟩
    exact List.forall_mem_cons.mpr ⟨zero, List.forall_mem_cons.mpr ⟨dot, isNumberChar_zeros _⟩⟩

theorem isNumberChar_exponential (decimal : Decimal) :
    ∀ c ∈ Layout.exponential decimal, isNumberChar c := by
  have numerals := isNumberChar_of_isDigits (isDigits_numerals decimal)
  have power : ∀ c ∈ 'e' :: (if decimal.leading < 0 then '-' else '+') ::
      Nat.toDigits 10 decimal.leading.natAbs, isNumberChar c := by
    refine List.forall_mem_cons.mpr ⟨rfl, List.forall_mem_cons.mpr ⟨?_, ?_⟩⟩
    · split <;> rfl
    · exact isNumberChar_of_isDigits (isDigits_toDigits _)
  unfold Layout.exponential
  dsimp only
  generalize decimal.numerals = digits at numerals ⊢
  match digits with
  | [] => exact power
  | [digit] => exact List.forall_mem_cons.mpr ⟨numerals digit List.mem_cons_self, power⟩
  | digit :: next :: more =>
    obtain ⟨first, others⟩ := List.forall_mem_cons.mp numerals
    refine List.forall_mem_cons.mpr ⟨first, List.forall_mem_cons.mpr ⟨rfl, ?_⟩⟩
    exact List.forall_mem_append.mpr ⟨others, power⟩

/-- A dump shows a point or an exponent in each number that is no natural one. -/
theorem exists_mark_writeDecimal (decimal : Decimal) :
    ∃ c ∈ Layout.dump.writeDecimal decimal, ¬ c.isDigit := by
  rw [Layout.writeDecimal]
  split
  · refine ⟨'.', ?_, by decide⟩
    rw [Layout.positional]
    split
    · simp [Layout.dump]
    split <;> simp
  · refine ⟨'e', ?_, by decide⟩
    rw [Layout.exponential]
    generalize decimal.numerals = numerals
    rcases numerals with _ | ⟨digit, _ | ⟨next, more⟩⟩ <;> simp

theorem readNumber?_natural (value : Nat) :
    readNumber? (Nat.toDigits 10 value) = some (.natural value) := by
  have digits : (Nat.toDigits 10 value).all Char.isDigit :=
    List.all_eq_true.mpr (isDigits_toDigits value).digit
  rw [readNumber?, if_pos digits, Nat.ofDigitChars_ten_toDigits]

section
variable {x : Binary64} (finite : x.isFinite)
include finite

theorem isNumberChar_write : ∀ c ∈ Layout.dump.write x, isNumberChar c := by
  rw [write_of_isFinite _ finite]
  refine List.forall_mem_append.mpr ⟨?_, ?_⟩
  · split
    · exact List.forall_mem_singleton.mpr rfl
    · exact List.forall_mem_nil _
  · rw [Layout.writeDecimal]
    split
    · exact isNumberChar_positional _ _
    · exact isNumberChar_exponential _

theorem readNumber?_write : readNumber? (Layout.dump.write x) = some (.number x finite) := by
  have marked : ¬ (Layout.dump.write x).all Char.isDigit := by
    obtain ⟨c, mem, mark⟩ := exists_mark_writeDecimal (shortest Layout.dump.tie x.magnitude.val)
    rw [write_of_isFinite _ finite, List.all_eq_true]
    exact fun digits => mark (digits c (List.mem_append_right _ mem))
  rw [readNumber?, if_neg marked, ofText?_write _ finite, Option.bind_some, dif_pos finite]

/-- A number starts with its sign or with a digit, by which a reader knows it. -/
theorem exists_write_eq : ∃ c rest, Layout.dump.write x = c :: rest ∧ (c = '-' ∨ c.isDigit) := by
  obtain ⟨c, rest, written, digit, -⟩ :=
    exists_writeDecimal_eq Layout.dump (shortest Layout.dump.tie x.magnitude.val)
  rw [write_of_isFinite _ finite, written]
  split
  · exact ⟨'-', c :: rest, rfl, .inl rfl⟩
  · exact ⟨c, rest, rfl, .inr digit⟩

end

/-! ## Values -/

/-- A value may stand here. Only where a key is due, none may. -/
def TakesValue : List Frame → Prop
  | .object _ :: _ => False
  | _ => True

theorem start?_eq {next : Reader} {c : Char} (takes : TakesValue frames)
    (begins : value? frames c = some next) : start? frames c = some next := by
  have noSpace : ¬ isSpace c := by
    intro space
    simp only [isSpace, List.contains_eq_mem, List.mem_cons, List.not_mem_nil, or_false,
      decide_eq_true_eq] at space
    rcases space with rfl | rfl | rfl | rfl <;> contradiction
  have noBracket : c ≠ ']' := by
    rintro rfl
    contradiction
  unfold start?
  rw [if_neg noSpace]
  split
  · rw [if_neg noBracket, begins]
  · exact takes.elim
  · exact begins

/-- The first character of a value, where a value may stand. -/
theorem run?_begin {next : Reader} {c : Char} (takes : TakesValue frames)
    (begins : value? frames c = some next) : run? (c :: rest) ⟨frames, .start⟩ = run? rest next :=
  run?_cons (start?_eq takes begins)

/-- Nothing that could belong to a number in front of it starts this text. -/
def EndsNumber (rest : List Char) : Prop := ∀ c ∈ rest.head?, ¬ isNumberChar c

theorem run?_number {c : Char} {letters : List Char} {value : Json} (takes : TakesValue frames)
    (first : c = '-' ∨ c.isDigit) (valid : ∀ d ∈ c :: letters, isNumberChar d)
    (known : readNumber? (c :: letters) = some value) (ends : EndsNumber rest) :
    run? (c :: letters ++ rest) ⟨frames, .start⟩ = run? rest ⟨frames, .done value⟩ :=
  calc run? (c :: letters ++ rest) ⟨frames, .start⟩
    _ = run? (letters ++ rest) ⟨frames, .number [c]⟩ := run?_begin takes (if_pos first)
    _ = run? rest ⟨frames, .number (c :: letters)⟩ :=
        run?_numberChars (List.forall_mem_cons.mp valid).2
    _ = run? rest ⟨frames, .done value⟩ := run?_readNumber known ends

theorem isSpace_lineBreak (depth? : Option Nat) : ∀ c ∈ lineBreak depth?, isSpace c := by
  cases depth? with
  | none => exact List.forall_mem_nil _
  | some depth =>
    refine List.forall_mem_cons.mpr ⟨rfl, fun c mem => ?_⟩
    rw [List.eq_of_mem_replicate mem]
    rfl

theorem endsNumber_lineBreak (depth? : Option Nat) {c : Char} (ends : ¬ isNumberChar c) :
    EndsNumber (lineBreak depth? ++ c :: rest) := by
  cases depth? with
  | none =>
    rintro d ⟨⟩
    exact ends
  | some depth =>
    rintro d ⟨⟩
    decide

/-- Blanks in front of a value, or of a key, and behind what has been opened. -/
theorem run?_lineBreak (depth? : Option Nat) :
    run? (lineBreak depth? ++ rest) ⟨frames, .start⟩ = run? rest ⟨frames, .start⟩ :=
  run?_spaces (isSpace_lineBreak depth?) fun _ space => if_pos space

theorem run?_lineBreak_done (depth? : Option Nat) (value : Json) :
    run? (lineBreak depth? ++ rest) ⟨frames, .done value⟩ = run? rest ⟨frames, .done value⟩ :=
  run?_spaces (isSpace_lineBreak depth?) fun _ space => if_pos space

theorem run?_label (depth? : Option Nat) (key : String) (front : List (String × Json)) :
    run? (label depth? key ++ rest) ⟨.object front :: frames, .start⟩ =
      run? rest ⟨.field front key :: frames, .start⟩ := by
  rw [label, List.append_assoc, run?_quoted key rfl, closeText, String.ofList_toList]
  split
  · exact (run?_cons rfl).trans (run?_cons rfl)
  · exact run?_cons rfl

mutual

/-- A printed value is read as what it is, in any frames and with any text behind it that does not
go on with a number. -/
theorem run?_before {frames : List Frame} {rest : List Char} (depth? : Option Nat)
    (takes : TakesValue frames) (ends : EndsNumber rest) : (value : Json) →
      run? (before depth? rest value) ⟨frames, .start⟩ = run? rest ⟨frames, .done value⟩
  | .null => (run?_begin takes rfl).trans (run?_word 'u' ['l', 'l'] .null)
  | .bool true => (run?_begin takes rfl).trans (run?_word 'r' ['u', 'e'] (.bool true))
  | .bool false => (run?_begin takes rfl).trans (run?_word 'a' ['l', 's', 'e'] (.bool false))
  | .natural value => by
    have valid := isDigits_toDigits value
    have known := readNumber?_natural value
    change run? (Nat.toDigits 10 value ++ rest) ⟨frames, .start⟩ = _
    generalize Nat.toDigits 10 value = letters at valid known ⊢
    match letters with
    | [] => exact absurd rfl valid.ne_nil
    | c :: letters =>
      have first : c.isDigit := valid.digit c List.mem_cons_self
      exact run?_number takes (.inr first) (isNumberChar_of_isDigits valid) known ends
  | .number x finite => by
    obtain ⟨c, letters, written, first⟩ := exists_write_eq finite
    have valid := isNumberChar_write finite
    have known := readNumber?_write finite
    rw [written] at valid known
    change run? (Layout.dump.write x ++ rest) ⟨frames, .start⟩ = _
    rw [written]
    exact run?_number takes first valid known ends
  | .text value => by
    change run? (quoted value ++ rest) ⟨frames, .start⟩ = _
    rw [run?_quoted value (start?_eq takes rfl), closeText]
    · rw [String.ofList_toList]
    · rintro fields below rfl
      exact takes
  | .array [] => (run?_begin takes rfl).trans (run?_cons rfl)
  | .array (item :: others) => by
    refine (run?_begin takes rfl).trans ((run?_lineBreak (depth?.map (· + 1))).trans ?_)
    exact run?_itemsBefore _ depth? [] (item :: others) (List.cons_ne_nil _ _)
  | .object [] => (run?_begin takes rfl).trans (run?_cons rfl)
  | .object (field :: others) => by
    refine (run?_begin takes rfl).trans ((run?_lineBreak (depth?.map (· + 1))).trans ?_)
    exact run?_fieldsBefore _ depth? [] (field :: others) (List.cons_ne_nil _ _)

/-- Items go behind those in front of them, up to the bracket that ends the array. -/
theorem run?_itemsBefore {frames : List Frame} {rest : List Char} (depth? outer? : Option Nat)
    (front : List Json) : (items : List Json) → items ≠ [] →
      run? (itemsBefore depth? (lineBreak outer? ++ ']' :: rest) items)
        ⟨.array front :: frames, .start⟩ = run? rest ⟨frames, .done (.array (front ++ items))⟩
  | [], absent => absurd rfl absent
  | [item], _ => by
    have takes : TakesValue (.array front :: frames) := trivial
    rw [itemsBefore, run?_before depth? takes (endsNumber_lineBreak outer? (by decide)) item,
      run?_lineBreak_done]
    exact run?_cons rfl
  | item :: next :: others, _ => by
    have takes : TakesValue (.array front :: frames) := trivial
    have ends : EndsNumber (',' :: (lineBreak depth? ++
        itemsBefore depth? (lineBreak outer? ++ ']' :: rest) (next :: others))) := by
      rintro c ⟨⟩
      decide
    rw [itemsBefore, run?_before depth? takes ends item, run?_cons rfl, run?_lineBreak,
      run?_itemsBefore depth? outer? (front ++ [item]) (next :: others) (List.cons_ne_nil _ _),
      List.append_assoc, List.singleton_append]
    exact List.cons_ne_nil _ _

/-- Fields go behind those in front of them, up to the brace that ends the object. -/
theorem run?_fieldsBefore {frames : List Frame} {rest : List Char} (depth? outer? : Option Nat)
    (front : List (String × Json)) : (fields : List (String × Json)) → fields ≠ [] →
      run? (fieldsBefore depth? (lineBreak outer? ++ '}' :: rest) fields)
        ⟨.object front :: frames, .start⟩ = run? rest ⟨frames, .done (.object (front ++ fields))⟩
  | [], absent => absurd rfl absent
  | [(key, value)], _ => by
    have takes : TakesValue (.field front key :: frames) := trivial
    rw [fieldsBefore, run?_label,
      run?_before depth? takes (endsNumber_lineBreak outer? (by decide)) value,
      run?_lineBreak_done]
    exact run?_cons rfl
  | (key, value) :: next :: others, _ => by
    have takes : TakesValue (.field front key :: frames) := trivial
    have ends : EndsNumber (',' :: (lineBreak depth? ++
        fieldsBefore depth? (lineBreak outer? ++ '}' :: rest) (next :: others))) := by
      rintro c ⟨⟩
      decide
    rw [fieldsBefore, run?_label, run?_before depth? takes ends value, run?_cons rfl,
      run?_lineBreak, run?_fieldsBefore depth? outer? (front ++ [(key, value)]) (next :: others)
        (List.cons_ne_nil _ _),
      List.append_assoc, List.singleton_append]
    exact List.cons_ne_nil _ _

end

end Reader

/-- What was printed, in either layout, is read as the same value. -/
theorem read?_render (depth? : Option Nat) (value : Json) :
    read? (value.render depth?) = some value := by
  have takes : Reader.TakesValue [] := trivial
  have ends : Reader.EndsNumber [] := by
    rintro c ⟨⟩
  rw [read?, render, String.toList_ofList, Reader.run?_before depth? takes ends]
  rfl

example : (Json.object [("x", .array [.natural 1, .text "a\tb"]), ("y", .array [])]).pretty =
    "\x7b\n  \"x\": [\n    1,\n    \"a\\tb\"\n  ],\n  \"y\": []\n\x7d" := by
  decide +kernel

end Json

end BlockScript
