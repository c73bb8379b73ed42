import SmallScale.CommandLine.Commands
import SmallScale.Proofs.CommandLine.TraceSetting
import SmallScale.Proofs.Machine.TracedRun
import SmallScale.Proofs.Text.Numeral

namespace SmallScale
namespace CommandLine

/-!
# Tracing

Asking for a trace adds lines to the output of a run and changes nothing else.  Whatever
the files hold and however they are reached, both runs load the same machine or fail to load
it for the same reason, and they leave the same files.  A machine that is loaded is run in
the same way by both: they have the same exit code and complain in the same words, and when
no cycle fails they show the same result.  The traced run shows one line for every cycle of
the run, and that is the number of cycles in the result.
-/

/-! ## What is loaded -/

/-- The log file is created, if one is asked for. -/
inductive OpensLog {σ : Type} (files : FileAccess (StateM σ)) : Option String → σ → σ → Prop where
  | none {before : σ} : OpensLog files none before before
  | some {path : String} {before after : σ}
      (written : (files.writeText path "").run before = (.ok (), after)) :
      OpensLog files (some path) before after

/-- The model is the one that a file describes, or the machine of 1948. -/
inductive FindsModel {σ : Type} (library : JsonLibrary) (files : FileAccess (StateM σ)) :
    Option String → σ → Model → σ → Prop where
  | none {before : σ} : FindsModel library files none before .smallScale before
  | some {path text : String} {model : Model} {before after : σ}
      (read : (files.readText path).run before = (.ok text, after))
      (described : readExchangedBy library Model.ofJson text = .ok model) :
      FindsModel library files (some path) before model after

/-- All files can be used, and the program fills the store of the machine. -/
inductive Loads {σ : Type} (libraries : Libraries) (files : FileAccess (StateM σ))
    (invocation : Invocation) (before : σ) : Machine → σ → Prop where
  | intro {model : Model} {source : String} {store : Store} {opened described after : σ}
      (log : OpensLog files invocation.logFile before opened)
      (found : FindsModel libraries.json files invocation.model opened model described)
      (read : (files.readText invocation.program).run described = (.ok source, after))
      (loaded : Program.load model source (Store.empty model.wordLength model.wordCount) =
        .ok store) :
      Loads libraries files invocation before { Machine.initial model with store } after

/-! ## What is shown -/

/-- Lines of text, each with a line break behind it. -/
def linesText (lines : List String) : String :=
  String.join (lines.map (· ++ "\n"))

/-- The lines that a traced run shows in front of its result. -/
def executionText (rows : List String) : String :=
  "\n━━━ Execution ━━━\n" ++ linesText rows

/-- A line of a trace without the line break at its end. -/
def rowText (row : Machine.TraceRow) : String :=
  row.executed.text ++ "  A=" ++ Decimal.signedText row.registers.accumulatorValue

/-- What a result says behind the number of cycles: the state, both registers, the store and
the warning about the limit. -/
def findingsText (machine : Machine) (limit : Nat) : String :=
  machine.state.name ++
    "\nCI: " ++ machine.registers.control.toClassic ++
      " (" ++ Decimal.text machine.registers.controlValue ++ ")" ++
    "\nA:  " ++ machine.registers.accumulator.toClassic ++ " (" ++
      Decimal.signedText machine.registers.accumulatorValue ++ ")" ++
    "\n\n" ++ machine.store.picture .classic ++ "\n" ++ limitText machine limit

/-- A result, from its heading on. -/
def resultFrom (count : Nat) (machine : Machine) (limit : Nat) : String :=
  "\n━━━ Result ━━━\nCycles: " ++ Decimal.text count ++ "\nState: " ++ findingsText machine limit

/-- An untraced run of a loaded machine beside a traced one. -/
inductive TellAlike (program : String) (machine : Machine) (limit : Nat) :
    Outcome → Outcome → Prop where
  | ended {rows : List Machine.TraceRow} {after : Machine}
      (runs : Machine.Runs limit (machine.act (.setRunning true)) rows after none)
      (unbroken : ∀ row ∈ rows, '\n' ∉ (rowText row).toList) :
      TellAlike program machine limit
        (.finished 0 (runHeader program ++ resultFrom rows.length after limit) "")
        (.finished 0 (runHeader program ++ executionText (rows.map rowText) ++
          resultFrom rows.length after limit) "")
  | faulted {rows : List Machine.TraceRow} {after : Machine} {cause : MachineError}
      (runs : Machine.Runs limit (machine.act (.setRunning true)) rows after (some cause)) :
      TellAlike program machine limit
        (.finished 1 (runHeader program) ("❌ " ++ faultText after cause ++ "\n"))
        (.finished 1 (runHeader program ++ executionText (rows.map rowText))
          ("❌ " ++ faultText after cause ++ "\n"))

/-! ## The lines of a trace -/

theorem traceText_eq (rows : List Machine.TraceRow) :
    traceText rows = executionText (rows.map rowText) := by
  have sameLines : rows.map traceLine = (rows.map rowText).map (· ++ "\n") := by
    rw [List.map_map]
    rfl
  unfold traceText executionText linesText
  apply congrArg
  exact congrArg String.join sameLines

theorem not_mem_padded {c : Char} (noDigit : Decimal.isDigit c = false) (width n : Nat) :
    c ∉ (Decimal.padded width n).toList :=
  Decimal.not_mem_of_isDigits (Decimal.spells_padded width n).1 noDigit

theorem unbroken_rowText (row : Machine.TraceRow) : '\n' ∉ (rowText row).toList := by
  have unbrokenName : '\n' ∉ row.executed.mnemonic.name.toList := by
    cases row.executed.mnemonic <;> decide
  have unbrokenNumbers (n : Nat) : '\n' ∉ (Decimal.padded 2 n).toList :=
    not_mem_padded (by decide) 2 n
  have unbrokenValue (value : Int) : '\n' ∉ (Decimal.signedText value).toList :=
    Decimal.not_mem_signedText (by decide) (by decide) value
  simp [rowText, Executed.text, String.toList_append, unbrokenName, unbrokenNumbers,
    unbrokenValue]

/-! ## Runs of a loaded machine -/

theorem resultText_append (shown : String) (machine : Machine) (count limit : Nat) :
    shown ++ resultText machine count ++ limitText machine limit =
      shown ++ resultFrom count machine limit := by
  unfold resultText resultFrom findingsText
  simp only [String.append_assoc]

theorem tellAlike_of_notCancelled {machine : Machine}
    (notCancelled : machine.controls.cancelled = false) (program : String) (limit : Nat) :
    TellAlike program machine limit (plainRun program machine limit)
      (tracedRun program machine limit) := by
  rcases Machine.exists_runs limit (machine.act (.setRunning true)) with
    ⟨rows, after, failure, runs⟩
  unfold plainRun tracedRun
  rw [runs.runToHalt notCancelled, runs.trace]
  cases failure with
  | none =>
      simp only [Machine.boundedEnd, Nat.zero_add, resultText_append, traceText_eq]
      exact .ended runs fun row _ => unbroken_rowText row
  | some cause =>
      -- The reason names a register only, and the run flag is none.
      have sameReason : faultText (after.act (.setRunning false)) cause = faultText after cause :=
        rfl
      simp only [Machine.boundedEnd, traceText_eq, sameReason]
      exact .faulted runs

/-! ## Loading -/

section

variable {σ : Type} {libraries : Libraries} {files : FileAccess (StateM σ)} {before after : σ}
  {invocation : Invocation} {machine : Machine}

theorem run_bind_of_run {α β : Type} {first : StateM σ α} {value : α}
    (ran : first.run before = (value, after)) (next : α → StateM σ β) :
    (first >>= next).run before = (next value).run after := by
  rw [StateT.run_bind, ran]
  rfl

theorem openLog_run_eq_ok_iff {path : Option String} :
    (openLog files path).run before = (.ok (), after) ↔ OpensLog files path before after := by
  cases path with
  | none =>
      constructor
      · rintro ⟨⟩
        exact .none
      · rintro ⟨⟩
        rfl
  | some path =>
      rcases written : (files.writeText path "").run before with ⟨result, between⟩
      have run : (openLog files (some path)).run before =
          (result.mapError ("Failed to open log file: " ++ ·), between) := by
        rw [openLog, run_bind_of_run written]
        rfl
      rw [run]
      constructor
      · intro opened
        cases result with
        | error reason => cases opened
        | ok done =>
            cases opened
            exact .some written
      · rintro (_ | opened)
        rw [written] at opened
        cases opened
        rfl

theorem readModel_run_eq_ok_iff {path : Option String} {model : Model} :
    (readModel libraries files path).run before = (.ok model, after) ↔
      FindsModel libraries.json files path before model after := by
  cases path with
  | none =>
      constructor
      · rintro ⟨⟩
        exact .none
      · rintro ⟨⟩
        rfl
  | some path =>
      rcases read : (files.readText path).run before with ⟨result, between⟩
      have run : (readModel libraries files (some path)).run before =
          (modelOfFile libraries.json path result, between) := by
        rw [readModel, run_bind_of_run read]
        rfl
      rw [run]
      constructor
      · intro found
        cases result with
        | error reason => cases found
        | ok text =>
            cases described : readExchangedBy libraries.json Model.ofJson text with
            | error e =>
                simp only [modelOfFile, modelOfTextBy, described, Except.mapError] at found
                cases found
            | ok other =>
                simp only [modelOfFile, modelOfTextBy, described, Except.mapError] at found
                cases found
                exact .some read described
      · rintro (_ | ⟨again, described⟩)
        rw [read] at again
        cases again
        simp [modelOfFile, modelOfTextBy, described, Except.mapError]

theorem machineOfFile_eq_ok_iff {model : Model} {path : String} {result : Except String String} :
    machineOfFile model path result = .ok machine ↔
      ∃ source store, result = .ok source ∧
        Program.load model source (Store.empty model.wordLength model.wordCount) = .ok store ∧
          machine = { Machine.initial model with store } := by
  cases result with
  | error reason => simp [machineOfFile]
  | ok source =>
      have initial : Program.load (Machine.initial model).model source
          (Machine.initial model).store =
            Program.load model source (Store.empty model.wordLength model.wordCount) := rfl
      unfold machineOfFile Machine.load
      dsimp only
      rw [initial]
      cases loaded : Program.load model source
          (Store.empty model.wordLength model.wordCount) with
      | error e => simp [Except.map, Except.mapError, loaded]
      | ok store => simp [Except.map, Except.mapError, Machine.withStore, loaded, eq_comm]

theorem readMachine_run_eq_ok_iff :
    (readMachine libraries files invocation).run before = (.ok machine, after) ↔
      ∃ model described source store,
        FindsModel libraries.json files invocation.model before model described ∧
          (files.readText invocation.program).run described = (.ok source, after) ∧
          Program.load model source (Store.empty model.wordLength model.wordCount) = .ok store ∧
          machine = { Machine.initial model with store } := by
  rcases found : (readModel libraries files invocation.model).run before with
    ⟨reason | model, between⟩
  · have run : (readMachine libraries files invocation).run before = (.error reason, between) := by
      rw [readMachine, run_bind_of_run found]
      rfl
    rw [run]
    constructor
    · rintro ⟨⟩
    · rintro ⟨model, described, source, store, finds, _⟩
      cases found.symm.trans (readModel_run_eq_ok_iff.mpr finds)
  · rcases read : (files.readText invocation.program).run between with ⟨result, behind⟩
    have run : (readMachine libraries files invocation).run before =
        (machineOfFile model invocation.program result, behind) := by
      rw [readMachine, run_bind_of_run found]
      dsimp only
      rw [run_bind_of_run read]
      rfl
    rw [run, Prod.mk.injEq, machineOfFile_eq_ok_iff]
    constructor
    · rintro ⟨⟨source, store, rfl, loaded, rfl⟩, rfl⟩
      exact ⟨model, between, source, store, readModel_run_eq_ok_iff.mp found, read, loaded, rfl⟩
    · rintro ⟨other, described, source, store, finds, readToo, loaded, rfl⟩
      cases found.symm.trans (readModel_run_eq_ok_iff.mpr finds)
      cases read.symm.trans readToo
      exact ⟨⟨source, store, rfl, loaded, rfl⟩, rfl⟩

/-- Nobody has asked a machine to end that only has its program loaded. -/
theorem Loads.notCancelled (loads : Loads libraries files invocation before machine after) :
    machine.controls.cancelled = false := by
  cases loads
  rfl

/-- Which command is given does not matter before the machine is made.  It is made as said,
or there is a reason why none is made. -/
theorem perform_run (libraries : Libraries) (files : FileAccess (StateM σ)) (before : σ)
    (invocation : Invocation) :
    (∃ machine after, Loads libraries files invocation before machine after ∧ ∀ command,
      (perform libraries files { invocation with command }).run before =
        (performOn files { invocation with command } machine).run after) ∨
    (∀ machine after, ¬ Loads libraries files invocation before machine after) ∧
      ∃ reason after, ∀ command,
        (perform libraries files { invocation with command }).run before =
          (failure reason, after) := by
  rcases opened : (openLog files invocation.logFile).run before with ⟨reason | _, between⟩
  · right
    constructor
    · rintro machine after ⟨log, _⟩
      cases opened.symm.trans (openLog_run_eq_ok_iff.mpr log)
    · refine ⟨reason, between, fun command => ?_⟩
      rw [perform, run_bind_of_run opened]
      rfl
  · rcases made : (readMachine libraries files invocation).run between with
      ⟨reason | machine, after⟩
    · right
      constructor
      · rintro machine after ⟨log, found, read, loaded⟩
        cases opened.symm.trans (openLog_run_eq_ok_iff.mpr log)
        cases made.symm.trans
          (readMachine_run_eq_ok_iff.mpr ⟨_, _, _, _, found, read, loaded, rfl⟩)
      · refine ⟨reason, after, fun command => ?_⟩
        have madeToo : (readMachine libraries files { invocation with command }).run between =
          (.error reason, after) := made
        rw [perform, run_bind_of_run opened]
        dsimp only
        rw [run_bind_of_run madeToo]
        rfl
    · left
      rcases readMachine_run_eq_ok_iff.mp made with
        ⟨model, described, source, store, found, read, loaded, rfl⟩
      refine ⟨_, after, .intro (openLog_run_eq_ok_iff.mp opened) found read loaded,
        fun command => ?_⟩
      have madeToo : (readMachine libraries files { invocation with command }).run between =
        (.ok { Machine.initial model with store }, after) := made
      rw [perform, run_bind_of_run opened]
      dsimp only
      rw [run_bind_of_run madeToo]

end

/-! ## The setting -/

/-- Arguments that are read as an untraced run are read as the traced one with the setting
`--trace` behind the word of the command. -/
def SetsTrace (read : List String → Request) : Prop :=
  ∀ (arguments : List String) (invocation : Invocation) (limit : Nat),
    read ("run" :: arguments) = .perform { invocation with command := .run limit false } →
      read ("run" :: "--trace" :: arguments) =
        .perform { invocation with command := .run limit true }

theorem setsTrace_readArguments : SetsTrace readArguments :=
  fun _ _ _ untraced => requestOf_trace untraced

theorem respondBy_perform {σ : Type} {libraries : Libraries} {arguments : List String}
    {invocation : Invocation} (asked : libraries.readArguments arguments = .perform invocation)
    (files : FileAccess (StateM σ)) :
    respondBy libraries files arguments = perform libraries files invocation := by
  rw [respondBy, asked]

/-- A run that is asked for with a trace and without one: if the files give a machine then
both run this machine and tell alike of it, and otherwise both fail for the same reason. -/
theorem tracing_only_adds_rows {σ : Type} (libraries : Libraries) (files : FileAccess (StateM σ))
    (before : σ) (setsTrace : SetsTrace libraries.readArguments) (arguments : List String)
    (invocation : Invocation) (limit : Nat)
    (untraced : libraries.readArguments ("run" :: arguments) =
      .perform { invocation with command := .run limit false }) :
    (∃ machine after plain traced, Loads libraries files invocation before machine after ∧
      (respondBy libraries files ("run" :: arguments)).run before = (plain, after) ∧
      (respondBy libraries files ("run" :: "--trace" :: arguments)).run before =
        (traced, after) ∧
      TellAlike invocation.program machine limit plain traced) ∨
    (∀ machine after, ¬ Loads libraries files invocation before machine after) ∧
      ∃ reason after,
        (respondBy libraries files ("run" :: arguments)).run before =
          (.finished 1 "" ("❌ " ++ reason ++ "\n"), after) ∧
        (respondBy libraries files ("run" :: "--trace" :: arguments)).run before =
          (.finished 1 "" ("❌ " ++ reason ++ "\n"), after) := by
  rw [respondBy_perform untraced, respondBy_perform (setsTrace _ _ _ untraced)]
  rcases perform_run libraries files before invocation with
    ⟨machine, after, loads, performed⟩ | ⟨noMachine, reason, after, failed⟩
  · left
    refine ⟨machine, after, _, _, loads, performed _, performed _, ?_⟩
    exact tellAlike_of_notCancelled loads.notCancelled invocation.program limit
  · exact Or.inr ⟨noMachine, reason, after, failed _, failed _⟩

/-- A single file that nobody may write to. -/
def FileAccess.single (path text : String) : FileAccess (StateM Unit) where
  readText other :=
    return if other = path then .ok text else .error FileError.missing.message
  writeText _ _ :=
    return .error "Permission denied (os error 13)"

/-- The readers of the program, and a file whose run stops in the last cycle it may take. -/
theorem tracing_only_adds_rows_stop :
    let source := "0 NUM 0\n1 LDN 3\n2 STP\n3 NUM 7\n"
    let files := FileAccess.single "stop.asm" source
    let asked : Invocation := ⟨.run 2 false, "stop.asm", none, none⟩
    SetsTrace Libraries.builtIn.readArguments ∧
    Libraries.builtIn.readArguments ["run", "stop.asm", "-m", "2"] = .perform asked ∧
    ∃ machine after, Loads .builtIn files asked () machine () ∧ after.state = .halted ∧
      (respondBy .builtIn files ["run", "stop.asm", "-m", "2"]).run () =
        (.finished 0 (runHeader "stop.asm" ++ resultFrom 2 after 2) "", ()) ∧
      (respondBy .builtIn files ["run", "--trace", "stop.asm", "-m", "2"]).run () =
        (.finished 0
          (runHeader "stop.asm" ++ executionText ["01 LDN 03  A=-7", "02 STP 00  A=-7"] ++
            resultFrom 2 after 2) "", ()) := by
  intro source files asked
  have untraced : Libraries.builtIn.readArguments ["run", "stop.asm", "-m", "2"] =
      .perform asked := rfl
  refine ⟨setsTrace_readArguments, untraced, ?_⟩
  let store := (Program.load .smallScale source (Store.empty 32 32)).toOption.getD
    (Store.empty 32 32)
  let machine : Machine := { Machine.initial .smallScale with store }
  have loaded : Program.load .smallScale source (Store.empty 32 32) = .ok store := by
    decide +kernel
  have rows : ((machine.trace 2).rows.map rowText, (machine.trace 2).failure,
      (machine.trace 2).machine.state) =
        (["01 LDN 03  A=-7", "02 STP 00  A=-7"], none, .halted) := by
    decide +kernel
  have loads : Loads .builtIn files asked () machine () := .intro .none .none rfl loaded
  rcases tracing_only_adds_rows .builtIn files () setsTrace_readArguments _ asked 2 untraced with
    ⟨other, ⟨⟩, plain, traced, loadsToo, ranPlain, ranTraced, alike⟩ | ⟨noMachine, _⟩
  · -- The file and the model leave no other machine.
    have same : other = machine := by
      rcases loadsToo with ⟨_ | _, _ | _, ⟨⟩, loadedToo⟩
      cases loaded.symm.trans loadedToo
      rfl
    subst same
    rcases alike with ⟨runs, _⟩ | ⟨runs⟩
    · rw [runs.trace] at rows
      rcases Prod.mk.inj rows with ⟨shown, stopped⟩
      have spent := congrArg List.length shown
      rw [List.length_map] at spent
      rw [shown, spent] at ranTraced
      rw [spent] at ranPlain
      exact ⟨machine, _, loads, (Prod.mk.inj stopped).2, ranPlain, ranTraced⟩
    · rw [runs.trace] at rows
      cases (Prod.mk.inj (Prod.mk.inj rows).2).1
  · exact absurd loads (noMachine _ _)

end CommandLine
end SmallScale
