import BlockScript.Proofs.Lexical.Spans

/-!
# A lexer under any calls

A lexer can be asked for a token in two ways. `next` ends the stream of tokens with the end of the
input or the first error; `read` neither sees nor ends the stream, and goes on behind an error from
wherever the error has left the cursor. Both move the same cursor, so the calls may come in any
order. Each of them leaves an `Event`, and `Lexer.orderly` says what can be told of all of them,
for every source and every sequence of calls.

What holds of every event is shown from what one call keeps (`Lexer.forall_mem_events`), and what
relates an event to a later one from what holds of all events behind it (`Lexer.pairwise_events`).
-/

namespace BlockScript

namespace Lexer

/-- A way to ask for a token. -/
inductive Call
  /-- The next token of the stream, if it has not ended. -/
  | next
  /-- The next token, also when the stream has ended. -/
  | read
  deriving DecidableEq, Repr

/-- The answer to a call, and the lexer behind it. -/
def run (lexer : Lexer) : Call → Option (Except Fault Token) × Lexer
  | .next => lexer.next
  | .read => (some lexer.read.1, lexer.read.2)

/-- A call with its answer, and the lexer in front of it and behind it. -/
structure Event where
  call : Call
  before : Lexer
  answer? : Option (Except Fault Token)
  after : Lexer
  deriving Repr

/-- What happens when a call is made. -/
def event (lexer : Lexer) (call : Call) : Event :=
  ⟨call, lexer, (lexer.run call).1, (lexer.run call).2⟩

/-- What happens when calls are made one after the other. -/
def events (lexer : Lexer) : List Call → List Event
  | [] => []
  | call :: calls => lexer.event call :: (lexer.event call).after.events calls

/-- The event ends the stream: `next` gives the end of the input or an error. -/
def Event.Ends (event : Event) : Prop :=
  event.call = .next ∧ ∃ result, event.answer? = some result ∧ isLast result

/-- What can be told of the events of a lexer over a source. -/
structure Orderly (source : String) (events : List Event) : Prop where
  /-- The offset of the cursor is the number of bytes in front of it. -/
  stands : ∀ event ∈ events,
    event.before.cursor.IsIn source.toList ∧ event.after.cursor.IsIn source.toList
  forward : ∀ event ∈ events, event.before.cursor.offset ≤ event.after.cursor.offset
  onward : events.Pairwise fun earlier later =>
    earlier.after.cursor.offset ≤ later.before.cursor.offset
  /-- A token lies between the places of the cursor in front of its call and behind it. -/
  spans : ∀ event ∈ events, ∀ token, event.answer? = some (.ok token) →
    event.before.cursor.offset ≤ token.span.start ∧ token.span.start ≤ token.span.stop ∧
      token.span.stop ≤ event.after.cursor.offset ∧ token.span.stop ≤ source.utf8ByteSize
  disjoint : events.Pairwise fun earlier later =>
    ∀ token other, earlier.answer? = some (.ok token) → later.answer? = some (.ok other) →
      token.span.stop ≤ other.span.start
  /-- Only `next` gives nothing, and only when `next` has ended the stream before. -/
  fused : ∀ front event back, events = front ++ event :: back →
    (event.answer? = none ↔ event.call = .next ∧ ∃ earlier ∈ front, earlier.Ends)
  scans : ∀ event ∈ events, ∀ result, event.answer? = some result →
    event.before.cursor.Scans result event.after.cursor
  /-- A character that no lexeme starts with is never passed over. -/
  stuck : events.Pairwise fun earlier later =>
    ∀ span result, earlier.answer? = some (.error ⟨.strayCharacter, span⟩) →
      later.answer? = some result → result = .error ⟨.strayCharacter, span⟩
  /-- Without a lexical error all calls walk along the same tokens and stay at the last one. -/
  agrees : ∀ tokens, tokenize source = .ok tokens →
    ∀ (index : Nat) event, events[index]? = some event →
      ∃ token, tokens[min index (tokens.length - 1)]? = some token ∧
        ∀ result, event.answer? = some result → result = .ok token

/-! ## One call -/

variable {lexer : Lexer} {event : Event} {calls : List Call}

/-- The event is what happens when its call is made. -/
def Event.IsRun (event : Event) : Prop := event = event.before.event event.call

namespace Event.IsRun

/-- Either the stream has ended and nothing happens, or the cursor scans. -/
theorem cases (ran : event.IsRun) :
    (event.call = .next ∧ event.before.ended ∧ event.answer? = none ∧
        event.after = event.before) ∨
      (¬ (event.call = .next ∧ event.before.ended) ∧
        ∃ result, event.answer? = some result ∧
          event.before.cursor.scan = (result, event.after.cursor)) := by
  obtain ⟨call, before, answer?, after⟩ := event
  cases call with
  | next =>
    simp only [IsRun, Lexer.event, run, next] at ran
    split at ran
    · rename_i ended
      cases ran
      exact .inl ⟨rfl, ended, rfl, rfl⟩
    · rename_i going
      cases ran
      exact .inr ⟨fun stopped => going stopped.2, _, rfl, rfl⟩
  | read =>
    simp only [IsRun, Lexer.event, run] at ran
    cases ran
    exact .inr ⟨nofun, _, rfl, rfl⟩

theorem answer?_eq_none_iff (ran : event.IsRun) :
    event.answer? = none ↔ event.call = .next ∧ event.before.ended := by
  obtain ⟨next, ended, none, -⟩ | ⟨going, result, some, -⟩ := ran.cases
  · exact iff_of_true none ⟨next, ended⟩
  · exact iff_of_false (by rw [some]; exact nofun) going

theorem ended_iff (ran : event.IsRun) :
    event.after.ended ↔ event.before.ended ∨ event.Ends := by
  obtain ⟨call, before, answer?, after⟩ := event
  cases call with
  | next =>
    simp only [IsRun, Lexer.event, run, next] at ran
    split at ran <;> cases ran <;> simp [Ends, *]
  | read =>
    simp only [IsRun, Lexer.event, run, read] at ran
    cases ran
    simp [Ends]

theorem scan (ran : event.IsRun) {result : Except Fault Token}
    (answer : event.answer? = some result) :
    event.before.cursor.scan = (result, event.after.cursor) := by
  obtain ⟨-, -, none, -⟩ | ⟨-, other, some, scanned⟩ := ran.cases
  · rw [none] at answer
    contradiction
  · rw [some] at answer
    cases answer
    exact scanned

/-- What scans keep, calls keep. -/
theorem keeps (holds : Cursor → Prop) (ran : event.IsRun) (before : holds event.before.cursor)
    (kept : ∀ result place, event.before.cursor.scan = (result, place) → holds place) :
    holds event.after.cursor := by
  obtain ⟨-, -, -, same⟩ | ⟨-, result, -, scanned⟩ := ran.cases
  · rw [same]
    exact before
  · exact kept result _ scanned

theorem offset_le (ran : event.IsRun) : event.before.cursor.offset ≤ event.after.cursor.offset :=
  ran.keeps (fun place => event.before.cursor.offset ≤ place.offset) (Nat.le_refl _)
    fun _ _ scanned => (Cursor.scans scanned).offset_le

end Event.IsRun

/-! ## All events -/

/-- What every call keeps holds in front of every event and behind it. -/
theorem forall_mem_events (holds : Lexer → Prop) (starts : holds lexer)
    (kept : ∀ event : Event, event.IsRun → holds event.before → holds event.after) :
    ∀ event ∈ lexer.events calls, event.IsRun ∧ holds event.before ∧ holds event.after := by
  induction calls generalizing lexer with
  | nil => exact List.forall_mem_nil _
  | cons call calls ih =>
    have behind := kept (lexer.event call) rfl starts
    exact List.forall_mem_cons.mpr ⟨⟨rfl, starts, behind⟩, ih behind⟩

theorem isRun_of_mem_events (mem : event ∈ lexer.events calls) : event.IsRun :=
  (forall_mem_events (fun _ => True) trivial (fun _ _ _ => trivial) event mem).1

/-- An event is related to all later ones if it is to whatever can come behind it. -/
theorem pairwise_events {related : Event → Event → Prop}
    (behind : ∀ event : Event, event.IsRun → ∀ calls, ∀ later ∈ event.after.events calls,
      related event later) :
    (lexer.events calls).Pairwise related := by
  induction calls generalizing lexer with
  | nil => exact .nil
  | cons call calls ih => exact .cons (behind (lexer.event call) rfl calls) ih

theorem isIn_of_mem_events {source : List Char} (stands : lexer.cursor.IsIn source)
    (mem : event ∈ lexer.events calls) :
    event.before.cursor.IsIn source ∧ event.after.cursor.IsIn source :=
  (forall_mem_events (fun lexer => lexer.cursor.IsIn source) stands
    (fun _ ran before => ran.keeps (·.IsIn source) before
      fun _ _ scanned => (Cursor.scans scanned).isIn before) event mem).2

theorem offset_le_of_mem_events (mem : event ∈ lexer.events calls) :
    lexer.cursor.offset ≤ event.before.cursor.offset :=
  (forall_mem_events (fun later => lexer.cursor.offset ≤ later.cursor.offset) (Nat.le_refl _)
    (fun _ ran before => Nat.le_trans before ran.offset_le) event mem).2.1

/-- A lexer that is stuck gives one answer for good. -/
theorem eq_of_stuck {result : Except Fault Token} {place : Cursor}
    (scanned : lexer.cursor.scan = (result, place)) (stuck : Cursor.IsStuck result)
    (mem : event ∈ lexer.events calls) {answer : Except Fault Token}
    (some : event.answer? = some answer) : answer = result := by
  have holds := forall_mem_events (fun lexer => ∃ place, lexer.cursor.scan = (result, place))
    ⟨place, scanned⟩ ?_ event mem
  · obtain ⟨ran, ⟨place, scanned⟩, -⟩ := holds
    have same := (ran.scan some).symm.trans scanned
    exact congrArg Prod.fst same
  · rintro event ran ⟨place, scanned⟩
    refine ran.keeps (fun cursor => ∃ place, cursor.scan = (result, place)) ⟨place, scanned⟩ ?_
    intro other place' again
    obtain ⟨rfl, rfl⟩ := Prod.mk.inj (again.symm.trans scanned)
    exact ⟨_, Cursor.scan_again scanned stuck⟩

/-- The stream has ended where an event before has ended it. -/
theorem ended_iff_of_events {front back : List Event}
    (split : lexer.events calls = front ++ event :: back) :
    event.before.ended ↔ lexer.ended ∨ ∃ earlier ∈ front, earlier.Ends := by
  induction calls generalizing lexer front with
  | nil => exact absurd split.symm (List.append_ne_nil_of_right_ne_nil _ (List.cons_ne_nil _ _))
  | cons call calls ih =>
    cases front with
    | nil =>
      obtain ⟨rfl, -⟩ := List.cons.inj split
      simp [Lexer.event]
    | cons first front =>
      obtain ⟨rfl, behind⟩ := List.cons.inj split
      have ran : (lexer.event call).IsRun := rfl
      rw [ih behind, ran.ended_iff, or_assoc]
      simp only [List.mem_cons, exists_eq_or_imp]
      rfl

/-! ## Without a lexical error -/

/-- The first token is scanned, and it is the only one if it is the end of the input. -/
theorem scan_of_tokens {cursor : Cursor} {tokens : List Token}
    (found : cursor.tokens = .ok tokens) :
    ∃ token place, cursor.scan = (.ok token, place) ∧
      (token.kind = .finish ∧ tokens = [token] ∨
        token.kind ≠ .finish ∧ ∃ next others, place.tokens = .ok (next :: others) ∧
          tokens = token :: next :: others) := by
  fun_induction Cursor.tokens cursor generalizing tokens with
  | case1 => contradiction
  | case2 cursor token place scanned last =>
    cases found
    exact ⟨token, place, scanned, .inl ⟨last, rfl⟩⟩
  | case3 cursor token place scanned inner ih =>
    cases behind : place.tokens with
    | error fault =>
      rw [behind] at found
      contradiction
    | ok rest =>
      rw [behind] at found
      cases found
      obtain ⟨next, _, -, ⟨-, rfl⟩ | ⟨-, _, _, -, rfl⟩⟩ := ih behind <;>
        exact ⟨token, place, scanned, .inr ⟨inner, _, _, behind, rfl⟩⟩

/-- A lexer whose stream has not ended, unless at its last token, walks along its tokens. -/
theorem agrees_of_tokens {tokens : List Token} (found : lexer.cursor.tokens = .ok tokens)
    (only : lexer.ended → ∃ token, tokens = [token]) {index : Nat}
    (here : (lexer.events calls)[index]? = some event) :
    ∃ token, tokens[min index (tokens.length - 1)]? = some token ∧
      ∀ result, event.answer? = some result → result = .ok token := by
  induction calls generalizing lexer tokens index with
  | nil => contradiction
  | cons call calls ih =>
    obtain ⟨token, place, scanned, ⟨last, rfl⟩ | ⟨inner, next, others, behind, rfl⟩⟩ :=
      scan_of_tokens found
    · -- The end of the input is given again and again.
      refine ⟨token, by simp, ?_⟩
      intro result answer
      exact eq_of_stuck scanned last (List.mem_of_getElem? here) answer
    · have going : ¬ lexer.ended := fun ended => by
        obtain ⟨_, same⟩ := only ended
        exact absurd (List.cons.inj same).2 (List.cons_ne_nil _ _)
      have ran : (lexer.event call).IsRun := rfl
      obtain ⟨-, ended, -⟩ | ⟨-, result, answer, scanned'⟩ := ran.cases
      · exact absurd ended going
      obtain ⟨rfl, reached⟩ := Prod.mk.inj (scanned.symm.trans scanned')
      cases index with
      | zero =>
        cases here
        refine ⟨token, by simp, ?_⟩
        intro result some
        exact Option.some.inj (some.symm.trans answer)
      | succ index =>
        have open_ : ¬ (lexer.event call).after.ended := by
          rw [ran.ended_iff]
          rintro (ended | ⟨-, result, some, isLast⟩)
          · exact going ended
          · cases answer.symm.trans some
            exact inner (by simpa [Lexer.isLast] using isLast)
        rw [reached] at behind
        obtain ⟨token', found', same⟩ := ih behind (fun ended => absurd ended open_) here
        refine ⟨token', ?_, same⟩
        have shift : min (index + 1) ((token :: next :: others).length - 1) =
            min index ((next :: others).length - 1) + 1 := by
          simp only [List.length_cons]
          omega
        rw [shift, List.getElem?_cons_succ, found']

/-- What can be told of a lexer, whatever the source is and however it is called. -/
theorem orderly (source : String) (calls : List Call) :
    Orderly source ((ofSource source).events calls) := by
  have start : (ofSource source).cursor.IsIn source.toList := ⟨[], rfl, rfl⟩
  refine {
    stands := fun event mem => isIn_of_mem_events start mem
    forward := fun event mem => (isRun_of_mem_events mem).offset_le
    onward := pairwise_events fun event _ calls later mem => offset_le_of_mem_events mem
    spans := ?_
    disjoint := ?_
    fused := ?_
    scans := fun event mem result answer => Cursor.scans ((isRun_of_mem_events mem).scan answer)
    stuck := ?_
    agrees := ?_ }
  · intro event mem token answer
    obtain ⟨behind, ordered, ahead⟩ :=
      (Cursor.scans ((isRun_of_mem_events mem).scan answer)).bounds
    obtain ⟨passed, split, offset⟩ := (isIn_of_mem_events start mem).2
    refine ⟨behind, ordered, ahead, Nat.le_trans ahead ?_⟩
    rw [offset, ← utf8Size_toList, split, utf8Size_append]
    exact Nat.le_add_right _ _
  · apply pairwise_events
    intro event ran calls later mem token other answer answer'
    have stop := (Cursor.scans (ran.scan answer)).bounds.2.2
    have start := (Cursor.scans ((isRun_of_mem_events mem).scan answer')).bounds.1
    exact Nat.le_trans stop (Nat.le_trans (offset_le_of_mem_events mem) start)
  · intro front event back split
    have mem : event ∈ (ofSource source).events calls := by
      rw [split]
      exact List.mem_append_right _ List.mem_cons_self
    rw [(isRun_of_mem_events mem).answer?_eq_none_iff, ended_iff_of_events split]
    simp [ofSource]
  · apply pairwise_events
    intro event ran calls later mem span result answer answer'
    exact eq_of_stuck (Cursor.scan_again (ran.scan answer) rfl) rfl mem answer'
  · intro tokens found index event here
    have found : (ofSource source).cursor.tokens = .ok tokens := found
    exact agrees_of_tokens found nofun here

set_option maxRecDepth 2000 in
/-- Behind the second dot `read` goes on, but in front of `€` it is stuck. -/
example : ((ofSource "1.5.7 €").events [.next, .next, .read, .read, .read]).map Event.answer? =
    [some (.error ⟨.secondDot, ⟨0, 4⟩⟩), none, some (.ok ⟨.number "7", ⟨4, 5⟩⟩),
      some (.error ⟨.strayCharacter, ⟨6, 9⟩⟩), some (.error ⟨.strayCharacter, ⟨6, 9⟩⟩)] := by
  cbv

end Lexer

end BlockScript
