import BlockScript.Proofs.Session.Safety

/-!
# Parsing depends on lexemes only

The machine on one buffer mirrors the parser on every stream of the same lexemes. So the parser does
the same on any two such streams: it succeeds with the same tree, or fails with the same cause at
corresponding places (`parseTokens_agreed`).
-/

namespace BlockScript

/-- The same result at corresponding places. -/
inductive Agreed (spans : Span → Span → Prop) {α : Type} : Except Fault α → Except Fault α → Prop
  | ok (value : α) : Agreed spans (.ok value) (.ok value)
  | error {fault other : Fault} (same : fault.Matches spans other) :
      Agreed spans (.error fault) (.error other)

/-- Two parsers that one machine mirrors do the same. -/
theorem View.Agree.agreed {exact view : View} (same : exact.spans = Eq) {α : Type}
    {success failure success' failure' : Session → Stream → Prop} {parser other : Parser α}
    {stream stream' : Stream} {ran : EStateM.Result Halt Session α}
    (left : exact.Agree success failure ran (parser stream))
    (right : view.Agree success' failure' ran (other stream')) :
    Agreed view.spans (Parser.runOn parser stream).1 (Parser.runOn other stream').1 := by
  rw [Parser.runOn, Parser.runOn]
  generalize parser stream = parsed at left
  generalize other stream' = parsed' at right
  cases left with
  | ok =>
    cases right with
    | ok => exact .ok _
  | error first =>
    rw [same] at first
    obtain rfl := fault_eq first
    cases right with
    | error second => exact .error second

/-- Parsing gives the same on streams of the same lexemes. -/
theorem parseTokens_agreed {tokens others : List Token} {spans : Span → Span → Prop}
    (rest : List.Forall₂ (Token.Matches spans) (Stream.ofTokens tokens).rest
      (Stream.ofTokens others).rest)
    (finish : spans (Stream.ofTokens tokens).finish (Stream.ofTokens others).finish) :
    Agreed spans (parseTokens tokens) (parseTokens others) := by
  obtain ⟨exact, overExact⟩ := View.exists_over tokens Eq
  obtain ⟨view, onTokens⟩ := View.exists_over tokens spans
  rw [onTokens.stream] at rest finish
  have enough {view : View} (short : view.inner.length ≤ tokens.length) :
      view.Fuels 0 (tokens.length + 1) := by
    unfold View.Fuels
    omega
  have left := View.completes_program (enough overExact.short) overExact.shows_self
  have right := View.completes_program (enough onTokens.short) (onTokens.shows rest finish)
  have agreed := left.agreed overExact.spans right
  rw [onTokens.spans] at agreed
  exact agreed

end BlockScript
