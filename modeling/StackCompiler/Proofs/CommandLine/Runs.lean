import Mathlib.Control.Monad.Basic
import StackCompiler.CommandLine.Surroundings
import StackCompiler.Proofs.CommandLine.Files

/-!
# All or nothing

A run delivers the program as its last act. So a run that fails, for whatever
reason, leaves the files and standard output as they were, and one that
succeeds changes the one destination that was asked for (`execute_compile`).
How much of the log is shown has no part in this. The system may refuse to
read or to write anything, for reasons of its own, but it does not do a part
of what it is asked for.
-/

namespace StackCompiler.CommandLine

theorem decode_toUTF8 (text : String) : decode text.toUTF8 = .ok text := by
  have valid : text.toUTF8.IsValidUTF8 := text.isValidUTF8
  rw [decode, String.fromUTF8?, dif_pos valid]
  rfl

/-- What a system refuses to do, and why. -/
structure Refusals where
  readFile (path : String) : Option String
  readInput : Option String
  writeFile (path content : String) : Option String

namespace Refusals

/-- A system that does everything that can be done. -/
def none : Refusals := ⟨fun _ => .none, .none, fun _ _ => .none⟩

/-- Reads and changes a value of surroundings, apart from what the system refuses. -/
def host (refusals : Refusals) : Host (StateM Surroundings) where
  readFile path :=
    match refusals.readFile path with
    | some reason => return .error reason
    | .none => Surroundings.host.readFile path
  readInput :=
    match refusals.readInput with
    | some reason => return .error reason
    | .none => Surroundings.host.readInput
  writeFile path content :=
    match refusals.writeFile path content with
    | some reason => return .error reason
    | .none => Surroundings.host.writeFile path content
  writeOutput := Surroundings.host.writeOutput
  writeErrors := Surroundings.host.writeErrors

theorem host_none : none.host = Surroundings.host := rfl

variable (refusals : Refusals) (invocation : Invocation) (before : Surroundings)

/-- The text of the source that an invocation names, or why there is none. -/
def source : Except String String :=
  let content : Except String ByteArray :=
    match invocation.sourcePath? with
    | some path =>
      match refusals.readFile path with
      | some reason => .error reason
      | .none => (before.tree.read path).mapError PathFault.message
    | .none =>
      match refusals.readInput with
      | some reason => .error reason
      | .none => .ok before.input
  content.bind decode

/-- The files after one has been written, or why it has not been. -/
def written (tree : FileTree) (path content : String) : Except String FileTree :=
  match refusals.writeFile path content with
  | some reason => .error reason
  | .none => (tree.write path content.toUTF8).mapError PathFault.message

/-- What the program of a successful run is added to. -/
def delivered (text : String) : Except String Surroundings :=
  match invocation.output with
  | .none => .ok { before with output := before.output ++ text }
  | some path =>
      (refusals.written before.tree path text).map fun tree => { before with tree }

/-- The surroundings after a successful run, without what is said on standard
error. There are none if a part of the run fails. -/
def effect : Option Surroundings := do
  let text ← (refusals.source invocation before).toOption
  let compiled ← (compile text invocation.strict).outcome.toOption
  (refusals.delivered invocation before compiled.program.render).toOption

end Refusals

/-- The surroundings after something has been said on standard error. -/
def Surroundings.say (surroundings : Surroundings) (text : String) : Surroundings :=
  { surroundings with errors := surroundings.errors ++ text }

theorem Surroundings.say_say (surroundings : Surroundings) (first second : String) :
    (surroundings.say first).say second = surroundings.say (first ++ second) := by
  rw [say, say, say, String.append_assoc]

namespace Refusals

variable (refusals : Refusals) (invocation : Invocation) (before : Surroundings)

theorem run_readSource :
    (readSource refusals.host invocation).run before =
      (refusals.source invocation before, before) := by
  rw [readSource, source]
  cases invocation.sourcePath? with
  | none =>
      simp only [host]
      cases refusals.readInput <;> rfl
  | some path =>
      simp only [host]
      cases refusals.readFile path <;> rfl

theorem run_writeFile (path text : String) :
    (refusals.host.writeFile path text).run before =
      match refusals.written before.tree path text with
      | .ok tree => (.ok ⟨⟩, { before with tree })
      | .error reason => (.error reason, before) := by
  simp only [host, written]
  cases refusals.writeFile path text with
  | some reason => rfl
  | none =>
      simp only [Surroundings.host, StateT.run_bind, StateT.run_get, pure_bind]
      cases before.tree.write path text.toUTF8 <;> rfl

theorem run_deliver (text log : String) : ∃ said,
    (deliver refusals.host invocation text).run (before.say log) =
      match refusals.delivered invocation before text with
      | .ok after => (.success, after.say said)
      | .error _ => (.failure, before.say said) := by
  rw [deliver, delivered]
  cases invocation.output with
  | none => exact ⟨log, rfl⟩
  | some path =>
      simp only [StateT.run_bind, refusals.run_writeFile]
      cases written : refusals.written before.tree path text with
      | error reason =>
          have failed :
              refusals.written (before.say log).tree path text = .error reason :=
            written
          refine ⟨log ++ (path ++ ": " ++ reason ++ "\n"), ?_⟩
          rw [failed, ← Surroundings.say_say]
          rfl
      | ok tree =>
          have succeeded :
              refusals.written (before.say log).tree path text = .ok tree := written
          refine ⟨log, ?_⟩
          rw [succeeded]
          rfl

/-- What is left to be done with a source that has been compiled. -/
def finish (outcome : Except Diagnostic Compiled) : StateM Surroundings Status :=
  match outcome with
  | .error diagnostic => do
    refusals.host.writeErrors (diagnostic.message ++ "\n")
    return .failure
  | .ok compiled => deliver refusals.host invocation compiled.program.render

theorem run_run_of_source {text : String}
    (reads : refusals.source invocation before = .ok text) :
    let compiled := compile text invocation.strict
    (run refusals.host invocation).run before =
      (refusals.finish invocation compiled.outcome).run
          (before.say (invocation.logText compiled.events)) := by
  rw [run, StateT.run_bind, refusals.run_readSource, reads]
  rfl

/-- A run ends as its effect says, and nothing else happens but that something
is said on standard error. -/
theorem run_run : ∃ said,
    (run refusals.host invocation).run before =
      match refusals.effect invocation before with
      | some after => (.success, after.say said)
      | .none => (.failure, before.say said) := by
  rw [effect]
  cases reads : refusals.source invocation before with
  | error reason =>
      rw [run, StateT.run_bind, refusals.run_readSource, reads]
      exact ⟨_, rfl⟩
  | ok text =>
      have goesOn := refusals.run_run_of_source invocation before reads
      cases compiles : (compile text invocation.strict).outcome with
      | error diagnostic =>
          simp only [compiles] at goesOn
          refine ⟨invocation.logText (compile text invocation.strict).events ++
              (diagnostic.message ++ "\n"), ?_⟩
          rw [goesOn, ← Surroundings.say_say]
          simp only [Except.toOption, Option.bind_eq_bind, Option.bind_some, compiles,
            Option.bind_none]
          rfl
      | ok compiled =>
          obtain ⟨said, delivers⟩ :=
            refusals.run_deliver invocation before compiled.program.render
            (invocation.logText (compile text invocation.strict).events)
          simp only [compiles] at goesOn
          refine ⟨said, ?_⟩
          rw [goesOn, finish, delivers]
          simp only [Except.toOption, Option.bind_eq_bind, Option.bind_some, compiles]
          cases refusals.delivered invocation before compiled.program.render <;> rfl

/-- How much of the log is shown makes no difference to the effect. -/
theorem effect_congr {invocation other : Invocation}
    (sameInput : other.input = invocation.input)
    (sameOutput : other.output = invocation.output)
    (sameStrict : other.strict = invocation.strict) :
    refusals.effect other before = refusals.effect invocation before := by
  simp only [effect, source, delivered, Invocation.sourcePath?, sameInput,
    sameOutput, sameStrict]

variable {refusals invocation before}

theorem effect_of_source_error {reason : String}
    (fails : refusals.source invocation before = .error reason) :
    refusals.effect invocation before = .none := by
  rw [effect, fails]
  rfl

theorem effect_of_source {text : String}
    (reads : refusals.source invocation before = .ok text) :
    refusals.effect invocation before =
      (compile text invocation.strict).outcome.toOption.bind fun compiled =>
          (refusals.delivered invocation before compiled.program.render).toOption := by
  rw [effect, reads]
  rfl

theorem source_of_read {path text : String}
    (isPath : invocation.sourcePath? = some path)
    (allowed : refusals.readFile path = .none)
    (reads : before.tree.read path = .ok text.toUTF8) :
    refusals.source invocation before = .ok text := by
  rw [source, isPath]
  simp only [allowed, reads]
  exact decode_toUTF8 text

theorem written_eq_ok {tree after : FileTree} {path content : String}
    (writes : refusals.written tree path content = .ok after) :
    tree.write path content.toUTF8 = .ok after := by
  rw [written] at writes
  split at writes
  next => contradiction
  next =>
    cases result : tree.write path content.toUTF8 with
    | error fault =>
        rw [result] at writes
        contradiction
    | ok found =>
        rw [result] at writes
        exact congrArg Except.ok (Except.ok.inj writes)

end Refusals

/-! ### How a run ends -/

/-- The end of a run that fails. Nothing is changed but standard error. -/
structure Fails (before : Surroundings) (status : Status)
    (after : Surroundings) : Prop where
  code : status.code = 1
  output : after.output = before.output
  tree : after.tree = before.tree

/-- The end of a run that adds a text to standard output. -/
structure Prints (before : Surroundings) (text : String) (status : Status)
    (after : Surroundings) : Prop where
  code : status.code = 0
  output : after.output = before.output ++ text
  tree : after.tree = before.tree

/-- The end of a run that writes a text to the file of a path. -/
structure Writes (before : Surroundings) (path text : String) (status : Status)
    (after : Surroundings) : Prop where
  code : status.code = 0
  output : after.output = before.output
  /-- The path leads to one place of the tree, and that place is all that differs. -/
  place : ∃ place, before.tree.placeOf path = .ok place ∧
    after.tree.entry place = .file text.toUTF8 ∧
    ∀ other, other ≠ place → after.tree.entry other = before.tree.entry other
  read : after.tree.read path = .ok text.toUTF8

/-- How a run that is asked to compile ends. -/
structure AllOrNothing (refusals : Refusals) (invocation : Invocation)
    (before : Surroundings) (status : Status) (after : Surroundings) : Prop where
  /-- The source cannot be read. -/
  unread : ∀ reason, refusals.source invocation before = .error reason →
    Fails before status after
  /-- The source does not compile. -/
  rejected : ∀ text diagnostic, refusals.source invocation before = .ok text →
    (compile text invocation.strict).outcome = .error diagnostic →
    Fails before status after
  /-- The program goes to standard output. -/
  printed : ∀ text compiled, refusals.source invocation before = .ok text →
    (compile text invocation.strict).outcome = .ok compiled → invocation.output = none →
    Prints before compiled.program.render status after
  /-- The program cannot be written to the file that it is to go to. -/
  unwritten :
    ∀ text compiled path reason, refusals.source invocation before = .ok text →
    (compile text invocation.strict).outcome = .ok compiled →
    invocation.output = some path →
    refusals.written before.tree path compiled.program.render = .error reason →
    Fails before status after
  /-- The program goes to a file. -/
  written : ∀ text compiled path tree, refusals.source invocation before = .ok text →
    (compile text invocation.strict).outcome = .ok compiled →
    invocation.output = some path →
    refusals.written before.tree path compiled.program.render = .ok tree →
    Writes before path compiled.program.render status after

namespace Refusals

variable {refusals : Refusals} {invocation : Invocation} {before : Surroundings}

/-- The end of a run, as its effect says. -/
theorem allOrNothing_of_effect {status : Status} {after : Surroundings} (said : String)
    (ends : (status, after) =
      match refusals.effect invocation before with
      | some changed => (.success, changed.say said)
      | .none => (.failure, before.say said)) :
    AllOrNothing refusals invocation before status after := by
  have fails (nothing : refusals.effect invocation before = .none) :
      Fails before status after := by
    rw [nothing] at ends
    obtain ⟨rfl, rfl⟩ := Prod.mk.inj ends
    exact ⟨rfl, rfl, rfl⟩
  have succeeds {changed : Surroundings}
    (effect : refusals.effect invocation before = some changed) :
      status = .success ∧ after = changed.say said := by
    rw [effect] at ends
    exact Prod.mk.inj ends
  have effect {text : String} {compiled : Compiled}
      (reads : refusals.source invocation before = .ok text)
      (compiles : (compile text invocation.strict).outcome = .ok compiled) :
      refusals.effect invocation before =
        (refusals.delivered invocation before compiled.program.render).toOption := by
    rw [effect_of_source reads, compiles]
    rfl
  constructor
  case unread =>
    intro reason unread
    exact fails (effect_of_source_error unread)
  case rejected =>
    intro text diagnostic reads rejects
    apply fails
    rw [effect_of_source reads, rejects]
    rfl
  case printed =>
    intro text compiled reads compiles toOutput
    have prints := effect reads compiles
    rw [delivered, toOutput] at prints
    obtain ⟨rfl, rfl⟩ := succeeds prints
    exact ⟨rfl, rfl, rfl⟩
  case unwritten =>
    intro text compiled path reason reads compiles toFile unwritten
    apply fails
    rw [effect reads compiles, delivered, toFile]
    simp only [unwritten]
    rfl
  case written =>
    intro text compiled path tree reads compiles toFile writes
    have changes := effect reads compiles
    rw [delivered, toFile] at changes
    simp only [writes] at changes
    obtain ⟨rfl, rfl⟩ := succeeds changes
    obtain ⟨place, leads, here, elsewhere⟩ :=
      FileTree.entry_of_write (written_eq_ok writes)
    exact ⟨rfl, rfl, ⟨place, leads, here, elsewhere⟩,
      FileTree.read_of_write (written_eq_ok writes)⟩

end Refusals

/-- By whatever rules the arguments are read, a run ends all or nothing, and how
much of the log is asked for makes a difference to standard error only. -/
theorem execute_compile (readArguments : List String → Except UsageFault Request)
    (refusals : Refusals) {arguments : List String} {invocation : Invocation}
    (accepted : readArguments arguments = .ok (.compile invocation))
    (before : Surroundings) :
    let ended := (executeBy readArguments refusals.host arguments).run before
    AllOrNothing refusals invocation before ended.1 ended.2 ∧
    ∀ otherArguments otherInvocation,
      readArguments otherArguments = .ok (.compile otherInvocation) →
      otherInvocation.input = invocation.input →
      otherInvocation.output = invocation.output →
      otherInvocation.strict = invocation.strict →
        ∃ errors, (executeBy readArguments refusals.host otherArguments).run before =
          (ended.1, { ended.2 with errors }) := by
  obtain ⟨said, runs⟩ := refusals.run_run invocation before
  have executes : (executeBy readArguments refusals.host arguments).run before =
      (run refusals.host invocation).run before := by
    rw [executeBy, accepted]
  rw [executes]
  refine ⟨Refusals.allOrNothing_of_effect said runs, ?_⟩
  intro otherArguments otherInvocation acceptedToo sameInput sameOutput sameStrict
  obtain ⟨otherSaid, otherRuns⟩ := refusals.run_run otherInvocation before
  rw [executeBy, acceptedToo, otherRuns, runs,
    refusals.effect_congr before sameInput sameOutput sameStrict]
  cases refusals.effect invocation before with
  | none => exact ⟨_, rfl⟩
  | some changed => exact ⟨_, rfl⟩

/-- A source is replaced by its program if it compiles, and is kept otherwise. -/
theorem execute_compile_inPlace :
    let tree := FileTree.ofFiles [("a", "print 1;".toUTF8), ("b", "print 1".toUTF8)]
    let before : Surroundings := ⟨tree, "".toUTF8, "", ""⟩
    let replaced := (execute Surroundings.host ["-o", "a", "a"]).run before
    let kept := (execute Surroundings.host ["-vo", "b", "b"]).run before
    (replaced.1.code = 0 ∧ replaced.2.output = "" ∧
      replaced.2.tree.read "a" = .ok "    PRINT 1 END\n".toUTF8) ∧
      kept.1.code = 1 ∧ kept.2.output = "" ∧ kept.2.tree = tree := by
  have executes :
      execute Surroundings.host = executeBy Request.ofArguments Refusals.none.host := by
    rw [Refusals.host_none]
    rfl
  rw [executes]
  intro tree before replaced kept
  have accepted : Request.ofArguments ["-o", "a", "a"] =
      .ok (.compile ⟨some "a", some "a", false, 0, false⟩) := by decide +kernel
  have acceptedToo : Request.ofArguments ["-vo", "b", "b"] =
      .ok (.compile ⟨some "b", some "b", false, 1, false⟩) := by decide +kernel
  have found : tree.read "a" = .ok "print 1;".toUTF8 := rfl
  have foundToo : tree.read "b" = .ok "print 1".toUTF8 := rfl
  have compiles : (compile "print 1;" false).outcome = .ok ⟨⟨[.print "1"]⟩, []⟩ := by
    decide +kernel
  have rejects : (compile "print 1" false).outcome =
      .error (.malformed ⟨1, 8, "print 1"⟩ "unexpected end of input, expected \";\"") :=
    by decide +kernel
  have text : (Program.mk [.print "1"]).render = "    PRINT 1 END\n" := by
    decide +kernel
  have writes : Refusals.none.written tree "a" (Program.mk [.print "1"]).render =
      .ok (tree.store ⟨.ancestor 0, ["a"]⟩ (Program.mk [.print "1"]).render.toUTF8) :=
    rfl
  obtain ⟨succeeds, _⟩ :=
    execute_compile Request.ofArguments Refusals.none accepted before
  obtain ⟨fails, _⟩ :=
    execute_compile Request.ofArguments Refusals.none acceptedToo before
  have reads : Refusals.none.source ⟨some "a", some "a", false, 0, false⟩ before =
      .ok "print 1;" := Refusals.source_of_read rfl rfl found
  have readsToo : Refusals.none.source ⟨some "b", some "b", false, 1, false⟩ before =
      .ok "print 1" := Refusals.source_of_read rfl rfl foundToo
  have written := succeeds.written _ _ "a" _ reads compiles rfl writes
  have failed := fails.rejected _ _ readsToo rejects
  rw [text] at written
  exact ⟨⟨written.code, written.output, written.read⟩, failed.code, failed.output,
    failed.tree⟩

end StackCompiler.CommandLine
