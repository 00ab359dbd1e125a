import BlockScript.Proofs.Lexical.Spans
import BlockScript.Proofs.Number.ReadBack
import BlockScript.Proofs.Syntax.Blame

/-!
# Faults of a source

Every fault points into its source (`fault_of_parse`). The lexer blames what it could not read; the
parser blames a token, or all tokens of a bad target, and what it then says of a token is said of
the one that stands at this span. That follows from what the tokens of a source are: each of them
covers its own text (`Token.StandsIn.covers`), and no two of them start at the same place
(`eq_of_span_eq`).
-/

namespace BlockScript

/-! ## What a message says -/

/-- The token that was found, in causes whose messages name it. -/
def Cause.found? : Cause → Option Found
  | .expected _ found | .expectedAssignment found | .unexpected found | .boundNotNumber _ found =>
      some found
  | _ => none

theorem Cause.message_of_found {cause : Cause} {found : Found} (named : cause.found? = some found) :
    ∃ front, cause.message = front ++ found.describe := by
  cases cause <;> cases named <;> exact ⟨_, rfl⟩

theorem head?_toList_append {front back : String} {c : Char}
    (starts : front.toList.head? = some c) :
    (front ++ back).toList.head? = some c := by
  rw [String.toList_append, List.head?_append, starts]
  rfl

/-- A quoted token is never taken for the end of the input. -/
theorem Found.describe_ne (text : String) : (Found.token text).describe ≠ "end of input" := by
  intro same
  have quote : (Found.token text).describe.toList.head? = some '"' :=
    head?_toList_append (head?_toList_append rfl)
  rw [same] at quote
  revert quote
  decide +kernel

/-- Only an unreadable number is called invalid. -/
theorem Cause.not_invalid {cause : Cause} (other : ∀ found, cause ≠ .numberUnreadable found) :
    ¬ "Invalid number".toList <+: cause.message.toList := by
  rintro ⟨rest, same⟩
  have first : cause.message.toList.head? = some 'I' := by
    rw [← same]
    rfl
  have differs {c : Char} (starts : cause.message.toList.head? = some c) : c = 'I' :=
    Option.some.inj (starts.symm.trans first)
  cases cause with
  | numberUnreadable found => exact other found rfl
  | expected slot found =>
    have letter := differs (head?_toList_append (head?_toList_append (head?_toList_append rfl)))
    contradiction
  | boundNotNumber bound found =>
    have letter := differs (head?_toList_append (head?_toList_append (head?_toList_append rfl)))
    contradiction
  | expectedAssignment found | unexpected found =>
    have letter := differs (head?_toList_append rfl)
    contradiction
  | tooDeep limit | pending text =>
    have letter := differs (head?_toList_append (head?_toList_append rfl))
    contradiction
  | missingValue scope => cases scope <;> revert first <;> decide +kernel
  | _ =>
    revert first
    decide +kernel

/-- A message that names no token that was found does not speak of one. -/
theorem Cause.silent {cause : Cause} (unnamed : cause.found? = none)
    (readable : ∀ found, cause ≠ .numberUnreadable found)
    (told : ∀ limit, cause = .tooDeep limit → limit = nestingLimit)
    (spelled : ∀ text, cause = .pending text → text = "let") :
    ¬ "found".toList <:+: cause.message.toList := by
  cases cause with
  | expected | expectedAssignment | unexpected | boundNotNumber => contradiction
  | numberUnreadable found => exact absurd rfl (readable found)
  -- The limit and the word are part of these messages, so it matters which they are.
  | tooDeep limit =>
    cases told limit rfl
    decide +kernel
  | pending text =>
    cases spelled text rfl
    decide +kernel
  | missingValue scope => cases scope <;> decide +kernel
  | _ => decide +kernel

/-- The fault blames all tokens of a value that is no place, from the first to the last. -/
def Fault.IsHull (fault : Fault) (tokens : List Token) : Prop :=
  ∃ before target after first last, tokens = before ++ (target ++ after) ∧
    target.head? = some first ∧ target.getLast? = some last ∧
    fault = ⟨.notAssignable, ⟨first.span.start, last.span.stop⟩⟩ ∧
    ∃ room expr, Derives room (.value expr) (target.map Token.toLexeme) ∧ ¬ expr.isPlace

/-- The message of the fault ends with the name of this token, which is the one at its span. -/
structure Fault.Names (fault : Fault) (source : String) (tokens : List Token) (token : Token) :
    Prop where
  located : ∀ other ∈ tokens, other.span = fault.span ↔ other = token
  message : ∃ front, fault.cause.message = front ++ token.found.describe
  /-- A token is quoted by its text, which is the one that its span covers. -/
  quoted : token.kind ≠ .finish → fault.span.Covers source.toList token.shown ∧
    token.found.describe = "\"" ++ token.content ++ "\""
  ended : token.found.describe = "end of input" ↔ token = .finish source.utf8ByteSize

/-- What every fault of a source is like. -/
structure Fault.PointsInto (fault : Fault) (source : String) : Prop where
  lies : fault.span.LiesIn source
  /-- Only messages that name a token that was found speak of one. -/
  silent : fault.cause.found? = none → ¬ "found".toList <:+: fault.cause.message.toList
  pending : fault.cause.category = .notYetSupported → fault.span.Covers source.toList "let".toList
  readable : ¬ "Invalid number".toList <+: fault.cause.message.toList

/-- What a fault of the tokens of a source points at, and what it says of that. -/
structure Fault.PointsAt (fault : Fault) (source : String) (tokens : List Token) : Prop where
  located : (∃ token ∈ tokens, token.span = fault.span) ∨ fault.IsHull tokens
  found : ∀ found, fault.cause.found? = some found →
    ∃ token ∈ tokens, found = token.found ∧ fault.Names source tokens token

/-- Of the causes that the parser knows, three depend on what they are told. -/
theorem Fault.PointsInto.of_cause {fault : Fault} {source : String}
    (lies : fault.span.LiesIn source)
    (readable : ∀ found, fault.cause ≠ .numberUnreadable found)
    (told : ∀ limit, fault.cause = .tooDeep limit → limit = nestingLimit)
    (pending : ∀ text, fault.cause = .pending text →
      text = "let" ∧ fault.span.Covers source.toList "let".toList) :
    fault.PointsInto source where
  lies := lies
  silent unnamed := Cause.silent unnamed readable told fun text same => (pending text same).1
  pending category := by
    obtain ⟨cause, span⟩ := fault
    cases cause with
    | pending text => exact (pending text rfl).2
    | _ => contradiction
  readable := Cause.not_invalid readable

theorem Fault.PointsInto.of_isLexical {fault : Fault} {source : String}
    (lies : fault.span.LiesIn source) (lexical : fault.cause.isLexical) :
    fault.PointsInto source := by
  obtain ⟨cause, span⟩ := fault
  refine .of_cause lies ?_ ?_ ?_
  all_goals
    rintro _ rfl
    contradiction

section
variable {source : String} {tokens : List Token}

/-- Numbers of a source can be read. -/
theorem ofText?_ne_none_of_spelledBy {lexeme : Lexeme} {text : List Char}
    (spelled : lexeme.SpelledBy text) (kind : lexeme.kind = .number) :
    Binary64.ofText? lexeme.content.toList ≠ none := by
  cases spelled with
  | number valid =>
    have digits : (Lexeme.number (String.ofList text)).content.toList = text := String.toList_ofList
    rw [digits, ofText?_of_isNumeral valid]
    cases valid with
    | whole valid =>
      rw [readDecimal?_isDigits valid]
      exact Option.some_ne_none _
    | fraction valid behind =>
      rw [readDecimal?_fraction valid behind]
      exact Option.some_ne_none _
  | _ => contradiction

/-- The only word of a source that cannot be parsed yet. -/
theorem eq_let_of_isPending {lexeme : Lexeme} {text : List Char} (spelled : lexeme.SpelledBy text)
    (pending : lexeme.kind.isPending) : lexeme.content = "let" ∧ lexeme.shown = "let".toList := by
  cases spelled with
  | keyword word =>
    cases word <;> first | contradiction | exact ⟨rfl, rfl⟩
  | _ => contradiction

theorem names_of_mem (found : tokenize source = .ok tokens) {token : Token} (mem : token ∈ tokens)
    {cause : Cause} (named : cause.found? = some token.found) :
    Fault.Names ⟨cause, token.span⟩ source tokens token where
  located other memOther := ⟨eq_of_span_eq found memOther mem, congrArg Token.span⟩
  message := Cause.message_of_found named
  quoted inner := by
    refine ⟨(standsIn_of_tokenize found token mem inner).covers, ?_⟩
    rw [Token.found, if_neg inner]
    rfl
  ended := by
    constructor
    · intro same
      by_contra other
      have inner : token.kind ≠ .finish := fun last => other (eq_finish_of_tokenize found mem last)
      rw [Token.found, if_neg inner] at same
      exact Found.describe_ne _ same
    · rintro rfl
      rfl

/-- A fault that blames one token of a source. -/
theorem points_of_isAbout (found : tokenize source = .ok tokens) {token : Token}
    (mem : token ∈ tokens) {cause : Cause} (about : cause.IsAbout token) :
    Fault.PointsInto ⟨cause, token.span⟩ source ∧
      Fault.PointsAt ⟨cause, token.span⟩ source tokens := by
  have stands := standsIn_of_tokenize found token mem
  refine ⟨.of_cause (liesIn_of_tokenize found mem) ?_ ?_ ?_, .inl ⟨token, mem, rfl⟩, ?_⟩
  · rintro _ rfl
    obtain ⟨kind, unreadable⟩ := about
    obtain ⟨_, _, _, _, spelled, -⟩ := stands (by rw [kind]; exact Kind.noConfusion)
    exact ofText?_ne_none_of_spelledBy spelled kind unreadable
  · rintro limit rfl
    exact about
  · rintro text rfl
    obtain ⟨kind, rfl⟩ := about
    have inner : token.kind ≠ .finish := by
      intro last
      rw [last] at kind
      contradiction
    have covers := (stands inner).covers
    obtain ⟨_, _, _, _, spelled, -⟩ := stands inner
    obtain ⟨content, shown⟩ := eq_let_of_isPending spelled kind
    rw [shown] at covers
    exact ⟨content, covers⟩
  · intro other named
    have same : other = token.found := by
      cases cause <;> cases named
      · exact about.1
      · exact about
      · exact about
      · exact about.1
    rw [same] at named
    exact ⟨token, mem, same, names_of_mem found mem named⟩

/-- A fault that blames some tokens of a source in a row. -/
theorem points_of_isHull {fault : Fault} (lies : fault.span.LiesIn source)
    (hull : fault.IsHull tokens) : fault.PointsInto source ∧ fault.PointsAt source tokens := by
  have cause : fault.cause = .notAssignable := by
    obtain ⟨_, _, _, _, _, -, -, -, rfl, -⟩ := hull
    rfl
  refine ⟨.of_cause lies ?_ ?_ ?_, .inr hull, ?_⟩
  all_goals
    rw [cause]
    exact fun _ same => by cases same

end

/-- What the parser rejects in a source is rejected for what stands there. -/
theorem points_of_explains {source : String} {ground : Ground}
    (found : tokenize source = .ok ground.tokens) {fault : Fault}
    (explained : ground.Explains fault) :
    fault.PointsInto source ∧ fault.PointsAt source ground.tokens := by
  cases explained with
  | token mem about => exact points_of_isAbout found mem about
  | @target before target after first last _ _ split starts ends derived place =>
    have whole : ground.tokens = before ++ (target ++ (after ++ [ground.finish])) := by
      rw [Ground.tokens, split]
      simp only [List.append_assoc]
    have inside : target <:+: ground.tokens := ⟨before, _, by rw [whole, List.append_assoc]⟩
    have memFirst := inside.subset (List.mem_of_head? starts)
    have memLast := inside.subset (List.mem_of_getLast? ends)
    obtain ⟨merged, ordered⟩ := merge_of_tokenize found inside starts ends
    rw [merged]
    apply points_of_isHull
    · exact .of_valid ordered (liesIn_of_tokenize found memFirst).starts
        (liesIn_of_tokenize found memLast).stops
    · exact ⟨before, target, _, first, last, whole, starts, ends, rfl, _, _, derived, place⟩

/-- Every fault points into the source. If the tokens of the source could be read, then the fault
points at one of them, or at all of a bad target, and what it says of a token that was found is so
of the one at its span. -/
theorem fault_of_parse (source : String) (fault : Fault) (failed : parse source = .error fault) :
    fault.PointsInto source ∧
      ∀ tokens, tokenize source = .ok tokens → fault.PointsAt source tokens := by
  cases tokenized : tokenize source with
  | error lexical =>
    rw [parse, tokenized] at failed
    cases failed
    obtain ⟨⟨text, covers⟩, lexical⟩ := covers_of_tokenize tokenized
    exact ⟨.of_isLexical covers.liesIn lexical, fun tokens found => by contradiction⟩
  | ok tokens =>
    rw [parse, tokenized] at failed
    obtain ⟨inner, rfl, before⟩ := exists_inner_of_tokenize tokenized
    have explained : Ground.Explains ⟨inner, .finish source.utf8ByteSize, rfl⟩ fault :=
      explains_of_parseTokens before failed
    obtain ⟨into, at_⟩ := points_of_explains tokenized explained
    refine ⟨into, fun tokens found => ?_⟩
    cases found
    exact at_

/-- The text literal takes two bytes between its quotes, and what follows it is found at the byte
behind them and a blank. -/
theorem fault_of_parse_unterminated :
    let source := "\"é\" x"
    let fault : Fault := ⟨.expected .afterStatement (.token "x"), ⟨5, 6⟩⟩
    let tokens := [⟨.text "é", ⟨1, 3⟩⟩, ⟨.identifier "x", ⟨5, 6⟩⟩, .finish 6]
    parse source = .error fault ∧ tokenize source = .ok tokens ∧
      fault.PointsInto source ∧ fault.PointsAt source tokens := by
  intro source fault tokens
  have failed : parse source = .error fault := by cbv
  have read : tokenize source = .ok tokens := by cbv
  obtain ⟨into, at_⟩ := fault_of_parse source fault failed
  exact ⟨failed, read, into, at_ tokens read⟩

end BlockScript
