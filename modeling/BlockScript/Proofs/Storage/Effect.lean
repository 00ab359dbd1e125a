import BlockScript.Check
import BlockScript.Proofs.Json.ReadBack
import BlockScript.Proofs.Storage.Paths
import Mathlib

/-!
# What a check does to storage

A check reads its script and writes at most two dumps, one after each stage that succeeds.
`check_effect` says what storage holds behind it, and that dumps change nothing of its answer unless
one of them cannot be written. What a dump holds can be read as the value that was dumped
(`Node.IsDump`).

Of storage it is only assumed that it is a map (`Storage.IsMap`): reading a file gives what stands
there, and writing one replaces this and nothing else, and fails only at a directory. A `Directory`
is stricter, since it walks along every path. What a run can do is said once, stage by stage
(`Ran`); the rest follows from it by cases.
-/

namespace BlockScript

/-- The storage is a map. Each path has a key, paths of one key lead to one place, and a text is
written in place of what the key has, unless that is a directory. -/
structure Storage.IsMap {σ κ : Type} (storage : Storage (StateM σ)) (key : String → κ)
    (node? : σ → κ → Option Node) : Prop where
  place : ∀ path other, key path = key other → Directory.placeOf path = Directory.placeOf other
  read : ∀ path state, storage.read path state = (Node.text (node? state (key path)), state)
  refuses : ∀ path text state, node? state (key path) = some .directory →
    storage.write path text state = (.error .isDirectory, state)
  replaces : ∀ path text state, node? state (key path) ≠ some .directory →
    ∃ changed, storage.write path text state = (.ok (), changed) ∧
      node? changed (key path) = some (.file text.toUTF8) ∧
      ∀ other, other ≠ key path → node? changed other = node? state other

/-- Storage whose state is what stands at each place. -/
def Storage.ofPlaces : Storage (StateM (Place → Option Node)) where
  read path := fun state => (Node.text (state (Directory.placeOf path)), state)
  write path text := fun state =>
    match state (Directory.placeOf path) with
    | some .directory => (.error .isDirectory, state)
    | _ => (.ok (), Function.update state (Directory.placeOf path) (some (.file text.toUTF8)))

theorem Storage.ofPlaces_isMap : Storage.ofPlaces.IsMap Directory.placeOf id where
  place _ _ same := same
  read _ _ := rfl
  refuses path text state occupied := by
    rw [id] at occupied
    simp only [Storage.ofPlaces, occupied]
  replaces path text state free := by
    refine ⟨Function.update state (Directory.placeOf path) (some (.file text.toUTF8)), ?_, ?_, ?_⟩
    · rw [id] at free
      simp only [Storage.ofPlaces]
    · exact Function.update_self ..
    · intro other apart
      exact Function.update_of_ne apart ..

namespace CheckOptions

/-- The path of the dump of the tokens. -/
def tokensPath (options : CheckOptions) : String := dumpPath "tokens" options.file

/-- The path of the dump of the tree. -/
def treePath (options : CheckOptions) : String := dumpPath "ast" options.file

section
variable {σ κ : Type} (options : CheckOptions) (key : String → κ) (node? : σ → κ → Option Node)
  (state : σ)

/-- The script can be read as a text with these tokens. -/
def Reads (source : String) (tokens : List Token) : Prop :=
  Node.text (node? state (key options.file)) = .ok source ∧ tokenize source = .ok tokens

/-- These tokens are to be dumped, and they can be. -/
def DumpsTokens (tokens : List Token) : Prop :=
  options.dumps ∧ (∃ source, options.Reads key node? state source tokens) ∧
    node? state (key options.tokensPath) ≠ some .directory

/-- The program of these tokens is to be dumped, and it can be. -/
def DumpsTree (tokens : List Token) (program : Program) : Prop :=
  options.DumpsTokens key node? state tokens ∧ parseTokens tokens = .ok program ∧
    node? state (key options.treePath) ≠ some .directory

/-- One of the dumps is due, and a directory stands in its way. -/
def IsBlocked : Prop :=
  options.dumps ∧ ∃ source tokens, options.Reads key node? state source tokens ∧
    (node? state (key options.tokensPath) = some .directory ∨
      (∃ program, parseTokens tokens = .ok program) ∧
        node? state (key options.treePath) = some .directory)

end

end CheckOptions

/-- What a check that can write its dumps answers, by the text that its script has. -/
def CheckOptions.answer (options : CheckOptions) (text : Except StorageFault String) :
    Except Failure String := do
  let source ← text.mapError Failure.storage
  let compiled ← compile source options.file
  pure (compiled.output options.emit options.form)

/-- This is a file with the value's text, every item on a line of its own, and a reader of the file
gets the value back. -/
structure Node.IsDump (node? : Option Node) (value : Json) : Prop where
  content : node? = some (.file value.pretty.toUTF8)
  reads : ∃ text, Node.text node? = .ok text ∧ Json.read? text = some value

/-- What a check has done with its result and the storage that it leaves. The result is compared
with that of the same check without dumps. -/
structure CheckEffect {σ κ : Type} (options : CheckOptions) (key : String → κ)
    (node? : σ → κ → Option Node) (state : σ) (plain result : Except Failure Checked)
    (changed : σ) : Prop where
  places : ∀ kind ∈ ["tokens", "ast"], Directory.placeOf (dumpPath kind options.file) =
    (dumpBase options.file).1 ++ [dumpName kind (dumpBase options.file).2]
  distinct : [key options.file, key options.tokensPath, key options.treePath].Nodup
  frame : ∀ other, other ≠ key options.tokensPath → other ≠ key options.treePath →
    node? changed other = node? state other
  script : node? changed (key options.file) = node? state (key options.file)
  quiet : ¬ options.dumps → changed = state
  tokensWritten : ∀ tokens, options.DumpsTokens key node? state tokens →
    Node.IsDump (node? changed (key options.tokensPath)) (tokensToJson tokens)
  tokensKept : (∀ tokens, ¬ options.DumpsTokens key node? state tokens) →
    node? changed (key options.tokensPath) = node? state (key options.tokensPath)
  treeWritten : ∀ tokens program, options.DumpsTree key node? state tokens program →
    Node.IsDump (node? changed (key options.treePath)) (programToJson program)
  treeKept : (∀ tokens program, ¬ options.DumpsTree key node? state tokens program) →
    node? changed (key options.treePath) = node? state (key options.treePath)
  /-- On success all dumps that are wanted have been written, and they are listed in order. -/
  lists : ∀ checked, result = .ok checked →
    if options.dumps then
      checked.written = [options.tokensPath, options.treePath] ∧
        ∃ tokens program, options.DumpsTree key node? state tokens program
    else checked.written = []
  agrees : ¬ options.IsBlocked key node? state →
    result.map Checked.output = plain.map Checked.output
  blocked : options.IsBlocked key node? state → result = .error (.storage .isDirectory)

/-! ## Stages of a check -/

section
variable {σ κ : Type} {storage : Storage (StateM σ)} {key : String → κ}
  {node? : σ → κ → Option Node} {options : CheckOptions} {state changed : σ}

/-- A run stops with the first failure. -/
theorem run_bind_cases {α β : Type} {first : ExceptT Failure (StateM σ) α}
    {next : α → ExceptT Failure (StateM σ) β} {result : Except Failure β}
    (ran : (first >>= next).run state = (result, changed)) :
    (∃ failure, first.run state = (.error failure, changed) ∧ result = .error failure) ∨
      ∃ value middle, first.run state = (.ok value, middle) ∧
        (next value).run middle = (result, changed) := by
  have unfolded : (first >>= next).run state =
      ExceptT.bindCont next (first.run state).1 (first.run state).2 := rfl
  rw [unfolded] at ran
  generalize first.run state = outcome at ran ⊢
  obtain ⟨answer, middle⟩ := outcome
  cases answer with
  | error failure =>
    cases ran
    exact .inl ⟨failure, rfl, rfl⟩
  | ok value => exact .inr ⟨value, middle, rfl, ran⟩

/-- What a dump does: it is not wanted, or blocked by a directory, or it is written. -/
inductive Dumped (options : CheckOptions) (key : String → κ) (node? : σ → κ → Option Node)
    (state : σ) (path text : String) : Except Failure (List String) → σ → Prop
  | unwanted (off : ¬ options.dumps) : Dumped options key node? state path text (.ok []) state
  | blocked (wanted : options.dumps) (occupied : node? state (key path) = some .directory) :
      Dumped options key node? state path text (.error (.storage .isDirectory)) state
  | written {changed : σ} (wanted : options.dumps)
      (free : node? state (key path) ≠ some .directory)
      (content : node? changed (key path) = some (.file text.toUTF8))
      (frame : ∀ other, other ≠ key path → node? changed other = node? state other) :
      Dumped options key node? state path text (.ok [path]) changed

/-- A fault of the storage is a failure of the run. -/
theorem run_storage {α : Type} (action : StateM σ (Except StorageFault α)) (state : σ) :
    (ExceptT.mk (Except.mapError Failure.storage <$> action)).run state =
      ((action state).1.mapError Failure.storage, (action state).2) := rfl

theorem Storage.IsMap.dumped (map : storage.IsMap key node?) {kind : String} {value : Json}
    {result : Except Failure (List String)}
    (ran : (storage.dump options kind value).run state = (result, changed)) :
    Dumped options key node? state (dumpPath kind options.file) value.pretty result changed := by
  unfold Storage.dump at ran
  split at ran
  · rename_i wanted
    by_cases occupied : node? state (key (dumpPath kind options.file)) = some .directory
    · have refused := map.refuses _ value.pretty state occupied
      obtain ⟨failure, failed, rfl⟩ | ⟨_, _, done, -⟩ := run_bind_cases ran
      · rw [run_storage, refused] at failed
        cases failed
        exact .blocked wanted occupied
      · rw [run_storage, refused] at done
        cases done
    · obtain ⟨after, written, content, frame⟩ := map.replaces _ value.pretty state occupied
      obtain ⟨failure, failed, rfl⟩ | ⟨_, _, done, rest⟩ := run_bind_cases ran
      · rw [run_storage, written] at failed
        cases failed
      · rw [run_storage, written] at done
        cases done
        cases rest
        exact .written wanted occupied content frame
  · rename_i off
    cases ran
    exact .unwanted off

/-- What a check does, by the stage at which it stops. -/
inductive Ran (options : CheckOptions) (key : String → κ) (node? : σ → κ → Option Node)
    (state : σ) : Except Failure Checked → σ → Prop
  | unread {fault : StorageFault}
      (text : Node.text (node? state (key options.file)) = .error fault) :
      Ran options key node? state (.error (.storage fault)) state
  | unlexed {source : String} {fault : Fault}
      (text : Node.text (node? state (key options.file)) = .ok source)
      (lexed : tokenize source = .error fault) :
      Ran options key node? state (.error (fault.failure source options.file)) state
  | tokensFailed {source : String} {tokens : List Token} {failure : Failure} {middle : σ}
      (reads : options.Reads key node? state source tokens)
      (dumped : Dumped options key node? state options.tokensPath (tokensToJson tokens).pretty
        (.error failure) middle) :
      Ran options key node? state (.error failure) middle
  | unparsed {source : String} {tokens : List Token} {fault : Fault} {first : List String}
      {middle : σ} (reads : options.Reads key node? state source tokens)
      (dumped : Dumped options key node? state options.tokensPath (tokensToJson tokens).pretty
        (.ok first) middle)
      (parsed : parseTokens tokens = .error fault) :
      Ran options key node? state (.error (fault.failure source options.file)) middle
  | treeFailed {source : String} {tokens : List Token} {program : Program} {failure : Failure}
      {first : List String} {middle changed : σ}
      (reads : options.Reads key node? state source tokens)
      (dumped : Dumped options key node? state options.tokensPath (tokensToJson tokens).pretty
        (.ok first) middle)
      (parsed : parseTokens tokens = .ok program)
      (dumped' : Dumped options key node? middle options.treePath (programToJson program).pretty
        (.error failure) changed) :
      Ran options key node? state (.error failure) changed
  | done {source : String} {tokens : List Token} {program : Program} {first second : List String}
      {middle changed : σ} (reads : options.Reads key node? state source tokens)
      (dumped : Dumped options key node? state options.tokensPath (tokensToJson tokens).pretty
        (.ok first) middle)
      (parsed : parseTokens tokens = .ok program)
      (dumped' : Dumped options key node? middle options.treePath (programToJson program).pretty
        (.ok second) changed) :
      Ran options key node? state
        (.ok ⟨Compiled.output ⟨tokens, program⟩ options.emit options.form, first ++ second⟩) changed

/-- A stage that leaves the storage as it is either stops the run or hands on its value. -/
theorem run_stage_cases {ε α β : Type} {stage : ExceptT Failure (StateM σ) α} {value : Except ε α}
    {wrap : ε → Failure} (stays : stage.run state = (value.mapError wrap, state))
    {next : α → ExceptT Failure (StateM σ) β} {result : Except Failure β}
    (ran : (stage >>= next).run state = (result, changed)) :
    (∃ fault, value = .error fault ∧ result = .error (wrap fault) ∧ changed = state) ∨
      ∃ given, value = .ok given ∧ (next given).run state = (result, changed) := by
  obtain ⟨failure, failed, rfl⟩ | ⟨given, middle, done, rest⟩ := run_bind_cases ran
  · rw [stays] at failed
    cases value with
    | error fault =>
      cases failed
      exact .inl ⟨fault, rfl, rfl, rfl⟩
    | ok given => cases failed
  · rw [stays] at done
    cases value with
    | error fault => cases done
    | ok given =>
      cases done
      exact .inr ⟨_, rfl, rest⟩

theorem Storage.IsMap.ran (map : storage.IsMap key node?) {result : Except Failure Checked}
    (ran : (check storage options).run state = (result, changed)) :
    Ran options key node? state result changed := by
  have reads : (storage.script options.file).run state =
      ((Node.text (node? state (key options.file))).mapError Failure.storage, state) := by
    rw [Storage.script, run_storage, map.read]
  obtain ⟨fault, text, rfl, rfl⟩ | ⟨source, text, ran⟩ := run_stage_cases reads ran
  · exact .unread text
  obtain ⟨fault, lexed, rfl, rfl⟩ | ⟨tokens, lexed, ran⟩ := run_stage_cases rfl ran
  · exact .unlexed text lexed
  obtain ⟨failure, dumped, rfl⟩ | ⟨first, middle, dumped, ran⟩ := run_bind_cases ran
  · exact .tokensFailed ⟨text, lexed⟩ (map.dumped dumped)
  -- The compiled source holds the tokens as well, so the cases are those of the parser.
  have compiled := run_stage_cases rfl ran
  cases parsed : parseTokens tokens with
  | error fault =>
    rw [parsed] at compiled
    obtain ⟨_, ⟨⟩, rfl, rfl⟩ | ⟨_, ⟨⟩, -⟩ := compiled
    exact .unparsed ⟨text, lexed⟩ (map.dumped dumped) parsed
  | ok program =>
    rw [parsed] at compiled
    obtain ⟨_, ⟨⟩, -⟩ | ⟨_, ⟨⟩, ran⟩ := compiled
    obtain ⟨failure, dumped', rfl⟩ | ⟨second, _, dumped', ran⟩ := run_bind_cases ran
    · exact .treeFailed ⟨text, lexed⟩ (map.dumped dumped) parsed (map.dumped dumped')
    · cases ran
      exact .done ⟨text, lexed⟩ (map.dumped dumped) parsed (map.dumped dumped')

/-! ## What the stages leave -/

namespace Dumped

variable {path text : String} {answer : Except Failure (List String)}

theorem frame (dumped : Dumped options key node? state path text answer changed) {other : κ}
    (apart : other ≠ key path) : node? changed other = node? state other := by
  cases dumped with
  | unwanted | blocked => rfl
  | written _ _ _ frame => exact frame other apart

theorem quiet (dumped : Dumped options key node? state path text answer changed)
    (off : ¬ options.dumps) : changed = state := by
  cases dumped with
  | unwanted | blocked => rfl
  | written wanted => exact absurd wanted off

/-- A dump that is wanted and not blocked is written. -/
theorem content (dumped : Dumped options key node? state path text answer changed)
    (wanted : options.dumps) (free : node? state (key path) ≠ some .directory) :
    node? changed (key path) = some (.file text.toUTF8) := by
  cases dumped with
  | unwanted off => exact absurd wanted off
  | blocked _ occupied => exact absurd occupied free
  | written _ _ content _ => exact content

/-- A dump that is not written changes nothing. -/
theorem kept (dumped : Dumped options key node? state path text answer changed)
    (idle : ¬ (options.dumps ∧ node? state (key path) ≠ some .directory)) : changed = state := by
  cases dumped with
  | unwanted | blocked => rfl
  | written wanted free => exact absurd ⟨wanted, free⟩ idle

theorem failed {failure : Failure}
    (dumped : Dumped options key node? state path text (.error failure) changed) :
    options.dumps ∧ node? state (key path) = some .directory ∧
      failure = .storage .isDirectory := by
  cases dumped with
  | blocked wanted occupied => exact ⟨wanted, occupied, rfl⟩

theorem done {written : List String}
    (dumped : Dumped options key node? state path text (.ok written) changed) :
    (options.dumps → node? state (key path) ≠ some .directory) ∧
      written = if options.dumps then [path] else [] := by
  cases dumped with
  | unwanted off => exact ⟨fun wanted => absurd wanted off, (if_neg off).symm⟩
  | written wanted free => exact ⟨fun _ => free, (if_pos wanted).symm⟩

end Dumped

theorem CheckOptions.Reads.unique {source source' : String} {tokens tokens' : List Token}
    (reads : options.Reads key node? state source tokens)
    (again : options.Reads key node? state source' tokens') :
    source' = source ∧ tokens' = tokens := by
  obtain ⟨text, lexed⟩ := reads
  obtain ⟨text', lexed'⟩ := again
  rw [text] at text'
  cases text'
  rw [lexed] at lexed'
  cases lexed'
  exact ⟨rfl, rfl⟩

theorem CheckOptions.answer_ok (options : CheckOptions) (source : String) :
    options.answer (.ok source) =
      (compile source options.file).map (·.output options.emit options.form) := by
  change (compile source options.file >>= fun compiled =>
    pure (compiled.output options.emit options.form)) = _
  cases compile source options.file <;> rfl

theorem compile_of_lexed {source : String} {tokens : List Token}
    (lexed : tokenize source = .ok tokens) (file : String) :
    compile source file = compileTokens tokens source file := by
  rw [compile, lexSource, lexed]
  rfl

namespace Ran

variable {result : Except Failure Checked}

theorem frame (ran : Ran options key node? state result changed) {other : κ}
    (apart : other ≠ key options.tokensPath) (apart' : other ≠ key options.treePath) :
    node? changed other = node? state other := by
  cases ran with
  | unread | unlexed => rfl
  | tokensFailed _ dumped | unparsed _ dumped => exact dumped.frame apart
  | treeFailed _ dumped _ dumped' | done _ dumped _ dumped' =>
    exact (dumped'.frame apart').trans (dumped.frame apart)

theorem quiet (ran : Ran options key node? state result changed) (off : ¬ options.dumps) :
    changed = state := by
  cases ran with
  | unread | unlexed => rfl
  | tokensFailed _ dumped | unparsed _ dumped => exact dumped.quiet off
  | treeFailed _ dumped _ dumped' | done _ dumped _ dumped' =>
    exact (dumped'.quiet off).trans (dumped.quiet off)

theorem not_reads_of_unread {fault : StorageFault}
    (text : Node.text (node? state (key options.file)) = .error fault) (source : String)
    (tokens : List Token) : ¬ options.Reads key node? state source tokens := by
  rintro ⟨text', -⟩
  rw [text] at text'
  contradiction

theorem not_reads_of_unlexed {read : String} {fault : Fault}
    (text : Node.text (node? state (key options.file)) = .ok read)
    (lexed : tokenize read = .error fault) (source : String) (tokens : List Token) :
    ¬ options.Reads key node? state source tokens := by
  rintro ⟨text', lexed'⟩
  rw [text] at text'
  cases text'
  rw [lexed] at lexed'
  contradiction

/-- The dump of the tokens is made of the tokens that are read, and nothing changes it later. -/
theorem first (ran : Ran options key node? state result changed)
    (apart : key options.tokensPath ≠ key options.treePath) :
    (changed = state ∧ ∀ source tokens, ¬ options.Reads key node? state source tokens) ∨
      ∃ source tokens answer middle, options.Reads key node? state source tokens ∧
        Dumped options key node? state options.tokensPath (tokensToJson tokens).pretty answer
          middle ∧
        node? changed (key options.tokensPath) = node? middle (key options.tokensPath) := by
  cases ran with
  | unread text => exact .inl ⟨rfl, not_reads_of_unread text⟩
  | unlexed text lexed => exact .inl ⟨rfl, not_reads_of_unlexed text lexed⟩
  | tokensFailed reads dumped | unparsed reads dumped =>
    exact .inr ⟨_, _, _, _, reads, dumped, rfl⟩
  | treeFailed reads dumped _ dumped' | done reads dumped _ dumped' =>
    exact .inr ⟨_, _, _, _, reads, dumped, dumped'.frame apart⟩

/-- The dump of the tree is made once the program is known, or it is not to be made. -/
theorem second (ran : Ran options key node? state result changed)
    (apart : key options.treePath ≠ key options.tokensPath) :
    (node? changed (key options.treePath) = node? state (key options.treePath) ∧
        ∀ tokens program, ¬ options.DumpsTree key node? state tokens program) ∨
      ∃ source tokens program answer middle, options.Reads key node? state source tokens ∧
        (options.dumps → node? state (key options.tokensPath) ≠ some .directory) ∧
        parseTokens tokens = .ok program ∧
        node? middle (key options.treePath) = node? state (key options.treePath) ∧
        Dumped options key node? middle options.treePath (programToJson program).pretty answer
          changed := by
  cases ran with
  | unread text =>
    refine .inl ⟨rfl, ?_⟩
    rintro tokens program ⟨⟨-, ⟨source, reads⟩, -⟩, -⟩
    exact not_reads_of_unread text source tokens reads
  | unlexed text lexed =>
    refine .inl ⟨rfl, ?_⟩
    rintro tokens program ⟨⟨-, ⟨source, reads⟩, -⟩, -⟩
    exact not_reads_of_unlexed text lexed source tokens reads
  | tokensFailed reads dumped =>
    refine .inl ⟨dumped.frame apart, ?_⟩
    rintro tokens program ⟨⟨-, -, free⟩, -⟩
    exact free dumped.failed.2.1
  | unparsed reads dumped parsed =>
    refine .inl ⟨dumped.frame apart, ?_⟩
    rintro tokens program ⟨⟨-, ⟨source, reads'⟩, -⟩, parsed', -⟩
    obtain ⟨-, rfl⟩ := reads.unique reads'
    rw [parsed] at parsed'
    contradiction
  | treeFailed reads dumped parsed dumped' | done reads dumped parsed dumped' =>
    exact .inr ⟨_, _, _, _, _, reads, dumped.done.1, parsed, dumped.frame apart, dumped'⟩

theorem tokensWritten (ran : Ran options key node? state result changed)
    (apart : key options.tokensPath ≠ key options.treePath) {tokens : List Token}
    (due : options.DumpsTokens key node? state tokens) :
    node? changed (key options.tokensPath) = some (.file (tokensToJson tokens).pretty.toUTF8) := by
  obtain ⟨wanted, ⟨source, reads⟩, free⟩ := due
  obtain ⟨-, unread⟩ | ⟨_, _, _, _, reads', dumped, later⟩ := ran.first apart
  · exact absurd reads (unread source tokens)
  · obtain ⟨-, rfl⟩ := reads'.unique reads
    rw [later]
    exact dumped.content wanted free

theorem tokensKept (ran : Ran options key node? state result changed)
    (apart : key options.tokensPath ≠ key options.treePath)
    (idle : ∀ tokens, ¬ options.DumpsTokens key node? state tokens) :
    node? changed (key options.tokensPath) = node? state (key options.tokensPath) := by
  obtain ⟨rfl, -⟩ | ⟨_, tokens, _, _, reads, dumped, later⟩ := ran.first apart
  · rfl
  · rw [later, dumped.kept fun ⟨wanted, free⟩ => idle tokens ⟨wanted, ⟨_, reads⟩, free⟩]

theorem treeWritten (ran : Ran options key node? state result changed)
    (apart : key options.treePath ≠ key options.tokensPath) {tokens : List Token}
    {program : Program} (due : options.DumpsTree key node? state tokens program) :
    node? changed (key options.treePath) =
      some (.file (programToJson program).pretty.toUTF8) := by
  obtain ⟨-, idle⟩ | ⟨_, _, _, _, _, reads', -, parsed', before, dumped⟩ := ran.second apart
  · exact absurd due (idle tokens program)
  · obtain ⟨⟨wanted, ⟨source, reads⟩, -⟩, parsed, free⟩ := due
    obtain ⟨-, rfl⟩ := reads'.unique reads
    rw [parsed] at parsed'
    cases parsed'
    rw [← before] at free
    exact dumped.content wanted free

theorem treeKept (ran : Ran options key node? state result changed)
    (apart : key options.treePath ≠ key options.tokensPath)
    (idle : ∀ tokens program, ¬ options.DumpsTree key node? state tokens program) :
    node? changed (key options.treePath) = node? state (key options.treePath) := by
  obtain ⟨kept, -⟩ | ⟨_, tokens, program, _, _, reads, clear, parsed, before, dumped⟩ :=
    ran.second apart
  · exact kept
  · have unwritten := dumped.kept fun ⟨wanted, free⟩ =>
      idle tokens program ⟨⟨wanted, ⟨_, reads⟩, clear wanted⟩, parsed, before ▸ free⟩
    rw [unwritten, before]

theorem lists {checked : Checked} (ran : Ran options key node? state (.ok checked) changed)
    (apart : key options.treePath ≠ key options.tokensPath) :
    if options.dumps then
      checked.written = [options.tokensPath, options.treePath] ∧
        ∃ tokens program, options.DumpsTree key node? state tokens program
    else checked.written = [] := by
  cases ran with
  | done reads dumped parsed dumped' =>
    obtain ⟨free, rfl⟩ := dumped.done
    obtain ⟨free', rfl⟩ := dumped'.done
    rw [dumped.frame apart] at free'
    split
    · rename_i wanted
      exact ⟨rfl, _, _, ⟨wanted, ⟨_, reads⟩, free wanted⟩, parsed, free' wanted⟩
    · rfl

/-- A check answers as if there were no dumps, unless one of them is blocked. -/
theorem answers (ran : Ran options key node? state result changed)
    (apart : key options.treePath ≠ key options.tokensPath) :
    (¬ options.IsBlocked key node? state ∧
        result.map Checked.output =
          options.answer (Node.text (node? state (key options.file)))) ∨
      (options.IsBlocked key node? state ∧ result = .error (.storage .isDirectory)) := by
  cases ran with
  | unread text =>
    refine .inl ⟨?_, by rw [text]; rfl⟩
    rintro ⟨-, source, tokens, reads, -⟩
    exact not_reads_of_unread text source tokens reads
  | unlexed text lexed =>
    refine .inl ⟨?_, ?_⟩
    · rintro ⟨-, source, tokens, reads, -⟩
      exact not_reads_of_unlexed text lexed source tokens reads
    · rw [text, CheckOptions.answer_ok, compile, lexSource, lexed]
      rfl
  | tokensFailed reads dumped =>
    obtain ⟨wanted, occupied, rfl⟩ := dumped.failed
    exact .inr ⟨⟨wanted, _, _, reads, .inl occupied⟩, rfl⟩
  | unparsed reads dumped parsed =>
    refine .inl ⟨?_, ?_⟩
    · rintro ⟨wanted, source, tokens, reads', occupied | ⟨⟨program, parsed'⟩, -⟩⟩
      · exact dumped.done.1 wanted occupied
      · obtain ⟨-, rfl⟩ := reads.unique reads'
        rw [parsed] at parsed'
        contradiction
    · rw [reads.1, CheckOptions.answer_ok, compile_of_lexed reads.2, compileTokens, parsed]
      rfl
  | treeFailed reads dumped parsed dumped' =>
    obtain ⟨wanted, occupied, rfl⟩ := dumped'.failed
    -- The tokens went elsewhere, so the directory was there from the start.
    rw [dumped.frame apart] at occupied
    exact .inr ⟨⟨wanted, _, _, reads, .inr ⟨⟨_, parsed⟩, occupied⟩⟩, rfl⟩
  | done reads dumped parsed dumped' =>
    refine .inl ⟨?_, ?_⟩
    · rintro ⟨wanted, source, tokens, -, occupied | ⟨-, occupied⟩⟩
      · exact dumped.done.1 wanted occupied
      · rw [← dumped.frame apart] at occupied
        exact dumped'.done.1 wanted occupied
    · rw [reads.1, CheckOptions.answer_ok, compile_of_lexed reads.2, compileTokens, parsed]
      rfl

end Ran

/-! ## Dumps -/

theorem Node.text_toUTF8 (text : String) : Node.text (some (.file text.toUTF8)) = .ok text := by
  have decoded : String.fromUTF8? text.toUTF8 = some text := dif_pos text.isValidUTF8
  rw [Node.text, decoded]

theorem Node.isDump_of_content {node? : Option Node} {value : Json}
    (content : node? = some (.file value.pretty.toUTF8)) : Node.IsDump node? value where
  content
  reads := ⟨value.pretty, by rw [content, Node.text_toUTF8], Json.read?_render (some 0) value⟩

/-! ## Keys of the files -/

theorem Storage.IsMap.distinct (map : storage.IsMap key node?) (options : CheckOptions) :
    [key options.file, key options.tokensPath, key options.treePath].Nodup := by
  have tokens : key options.file ≠ key options.tokensPath := fun same =>
    placeOf_dumpPath_ne (by decide) options.file (map.place _ _ same).symm
  have tree : key options.file ≠ key options.treePath := fun same =>
    placeOf_dumpPath_ne (by decide) options.file (map.place _ _ same).symm
  have both : key options.tokensPath ≠ key options.treePath := fun same =>
    placeOf_dumpPath_ne_dumpPath (by decide) (by decide) (by decide) options.file
      (map.place _ _ same)
  simp [tokens, tree, both]

/-- A check changes storage by its dumps only and, unless a directory is in the way of one, answers
as it does without dumps. -/
theorem check_effect (map : storage.IsMap key node?) (options : CheckOptions) (state : σ) :
    CheckEffect options key node? state
      ((check storage { options with dumps := false }).run state).1
      ((check storage options).run state).1 ((check storage options).run state).2 := by
  generalize run : (check storage options).run state = outcome
  generalize runPlain : (check storage { options with dumps := false }).run state = outcomePlain
  obtain ⟨result, changed⟩ := outcome
  obtain ⟨plain, statePlain⟩ := outcomePlain
  have ran := map.ran run
  have distinct := map.distinct options
  have apart : (key options.file ≠ key options.tokensPath ∧
      key options.file ≠ key options.treePath) ∧ key options.tokensPath ≠ key options.treePath := by
    simpa using distinct
  obtain ⟨⟨script, script'⟩, dumps⟩ := apart
  have answers := ran.answers dumps.symm
  have answersPlain := (map.ran runPlain).answers dumps.symm
  -- What the text alone decides is the answer of both checks.
  have unblocked : ¬ CheckOptions.IsBlocked { options with dumps := false } key node? state :=
    fun blocked => Bool.noConfusion blocked.1
  have same := (answersPlain.resolve_right fun blocked => unblocked blocked.1).2
  exact {
    places := by
      have plain : ∀ kind ∈ ["tokens", "ast"], '/' ∉ kind.toList := by decide
      exact fun kind mem => placeOf_dumpPath (plain kind mem) options.file
    distinct
    frame := fun _ => ran.frame
    script := ran.frame script script'
    quiet := ran.quiet
    tokensWritten := fun _ due => Node.isDump_of_content (ran.tokensWritten dumps due)
    tokensKept := ran.tokensKept dumps
    treeWritten := fun _ _ due => Node.isDump_of_content (ran.treeWritten dumps.symm due)
    treeKept := ran.treeKept dumps.symm
    lists := by
      rintro checked rfl
      exact ran.lists dumps.symm
    agrees := fun free => (answers.resolve_right fun blocked => free blocked.1).2.trans same.symm
    blocked := fun occupied => (answers.resolve_left fun free => free.1 occupied).2 }

end

/-- Storage that holds one script, which can be read as tokens but not as a program. -/
def brokenScript : Place → Option Node :=
  Function.update (fun _ => none) ["main.bs".toList] (some (.file "global x;".toUTF8))

theorem check_effect_brokenScript :
    Storage.ofPlaces.IsMap Directory.placeOf id ∧ ∃ tokens, tokenize "global x;" = .ok tokens ∧
      let changed := ((check .ofPlaces ⟨"main.bs", .tree, .pretty, true⟩).run brokenScript).2
      Node.IsDump (changed ["main.tokens.json".toList]) (tokensToJson tokens) ∧
        changed ["main.ast.json".toList] = none := by
  have effect := check_effect Storage.ofPlaces_isMap ⟨"main.bs", .tree, .pretty, true⟩ brokenScript
  have script : Directory.placeOf "main.bs" = ["main.bs".toList] := by decide
  have first : Directory.placeOf (dumpPath "tokens" "main.bs") = ["main.tokens.json".toList] := by
    decide
  have second : Directory.placeOf (dumpPath "ast" "main.bs") = ["main.ast.json".toList] := by
    decide
  have lexed : tokenize "global x;" = .ok [⟨.keyword .global, ⟨0, 6⟩⟩, ⟨.identifier "x", ⟨7, 8⟩⟩,
      ⟨.symbol .semicolon, ⟨8, 9⟩⟩, .finish 9] := by cbv
  have failed : (parse "global x;").isOk = false := by cbv
  rw [parse, lexed] at failed
  generalize ([_, _, _, _] : List Token) = tokens at lexed failed
  change (parseTokens tokens).isOk = false at failed
  have reads : CheckOptions.Reads ⟨"main.bs", .tree, .pretty, true⟩ Directory.placeOf id
      brokenScript "global x;" tokens := by
    refine ⟨?_, lexed⟩
    rw [script, id, brokenScript, Function.update_self]
    cbv
  have free : brokenScript ["main.tokens.json".toList] = none :=
    Function.update_of_ne (by decide) _ _
  have free' : brokenScript ["main.ast.json".toList] = none :=
    Function.update_of_ne (by decide) _ _
  have written := effect.tokensWritten tokens ⟨rfl, ⟨_, reads⟩, by
    rw [CheckOptions.tokensPath, first, id, free]
    exact (Option.some_ne_none _).symm⟩
  have kept := effect.treeKept fun tokens' program due => by
    obtain ⟨⟨-, ⟨source, reads'⟩, -⟩, parsed, -⟩ := due
    obtain ⟨-, rfl⟩ := reads.unique reads'
    rw [parsed] at failed
    exact Bool.noConfusion failed
  rw [CheckOptions.tokensPath, first] at written
  rw [CheckOptions.treePath, second, id, id, free'] at kept
  exact ⟨Storage.ofPlaces_isMap, tokens, lexed, written, kept⟩

end BlockScript
