import SmallScale.CommandLine.Arguments

namespace SmallScale
namespace CommandLine

/-!
# The setting that asks for a trace

Readers of arguments look up what was given before only to refuse it a second time.  So
when arguments were read and no trace was asked for among them, they are read in the same
way behind the setting that asks for one, and nothing but this setting is added to what
they give.  Below this is said of every reader, from the innermost one outwards.
-/

namespace Given

variable {given after : Given} {setting : Setting} {text : String}

/-- What was given behind the setting that asks for a trace. -/
def behindTrace (given : Given) : Given :=
  { given with flags := given.flags ++ [.trace] }

theorem has_behindTrace (other : setting ≠ .trace) :
    given.behindTrace.has setting = given.has setting := by
  simp [has, value?, behindTrace, other]

theorem flag_behindTrace (taken : given.flag setting = .ok after)
    (untraced : after.has .trace = false) :
    given.has .trace = false ∧ given.behindTrace.flag setting = .ok after.behindTrace := by
  unfold flag at taken ⊢
  split at taken
  · cases taken
  · cases taken
  · rename_i notHelp notVersion
    split at taken
    · cases taken
    · rename_i fresh
      cases taken
      have other : setting ≠ .trace := by
        rintro rfl
        simp [has] at untraced
      have untracedBefore : given.has .trace = false := by
        simpa [has, value?, other.symm] using untraced
      refine ⟨untracedBefore, ?_⟩
      rw [has_behindTrace other, if_neg fresh]
      rfl

theorem value_behindTrace (taken : given.value setting text = .ok after)
    (untraced : after.has .trace = false) :
    given.has .trace = false ∧ given.behindTrace.value setting text = .ok after.behindTrace := by
  unfold value at taken ⊢
  split at taken
  · cases taken
  · rename_i fresh
    cases taken
    have other : setting ≠ .trace := by
      rintro rfl
      simp [has, value?] at untraced
    have untracedBefore : given.has .trace = false := by
      have differs : (Setting.trace == setting) = false := by
        simpa using other.symm
      simpa [has, value?, List.lookup_cons, differs] using untraced
    refine ⟨untracedBefore, ?_⟩
    rw [has_behindTrace other, if_neg fresh]
    rfl

theorem word_behindTrace (taken : given.word text = .ok after)
    (untraced : after.has .trace = false) :
    given.has .trace = false ∧ given.behindTrace.word text = .ok after.behindTrace := by
  unfold word at taken ⊢
  split at taken
  · rename_i first
    cases taken
    exact ⟨untraced, if_pos first⟩
  · cases taken

theorem words_behindTrace {words : List String}
    (taken : words.foldlM (fun given word => given.word word) given = .ok after)
    (untraced : after.has .trace = false) :
    given.has .trace = false ∧
      words.foldlM (fun given word => given.word word) given.behindTrace =
        .ok after.behindTrace := by
  induction words generalizing given with
  | nil =>
      cases taken
      exact ⟨untraced, rfl⟩
  | cons word rest ih =>
      rw [List.foldlM_cons] at taken ⊢
      cases first : given.word word with
      | error e =>
          rw [first] at taken
          cases taken
      | ok between =>
          rw [first] at taken
          rcases ih taken with ⟨untracedBetween, restBehindTrace⟩
          rcases word_behindTrace first untracedBetween with ⟨untracedBefore, firstBehindTrace⟩
          refine ⟨untracedBefore, ?_⟩
          rw [firstBehindTrace]
          exact restBehindTrace

end Given

section

variable {understood : List Setting} {given after : Given} {pending : Option Setting}

/-- A setting that was taken leaves nothing pending. -/
theorem map_behindTrace {first behind : Except Interruption Given}
    (reads : ∀ between : Given, first = .ok between → between.has .trace = false →
      given.has .trace = false ∧ behind = .ok between.behindTrace)
    (taken : (first.map fun given => ((given, none) : Pending)) = .ok (after, pending))
    (untraced : after.has .trace = false) :
    given.has .trace = false ∧
      (behind.map fun given => ((given, none) : Pending)) = .ok (after.behindTrace, pending) := by
  cases first with
  | error e => cases taken
  | ok between =>
      cases taken
      rcases reads after rfl untraced with ⟨untracedBefore, rfl⟩
      exact ⟨untracedBefore, rfl⟩

theorem readLetters_behindTrace {letters : List Char}
    (taken : readLetters understood given letters = .ok (after, pending))
    (untraced : after.has .trace = false) :
    given.has .trace = false ∧
      readLetters understood given.behindTrace letters = .ok (after.behindTrace, pending) := by
  induction letters generalizing given with
  | nil =>
      cases taken
      exact ⟨untraced, rfl⟩
  | cons letter rest ih =>
      rw [readLetters] at taken ⊢
      split at taken
      · cases taken
      · rename_i setting _
        by_cases isFlag : setting.placeholder?.isNone = true
        · rw [if_pos isFlag] at taken
          cases flag : given.flag setting with
          | error e =>
              rw [flag] at taken
              cases taken
          | ok between =>
              rw [flag] at taken
              rcases ih taken with ⟨untracedBetween, restBehindTrace⟩
              rcases Given.flag_behindTrace flag untracedBetween with
                ⟨untracedBefore, flagBehindTrace⟩
              refine ⟨untracedBefore, ?_⟩
              rw [if_pos isFlag, flagBehindTrace]
              exact restBehindTrace
        · rw [if_neg isFlag] at taken
          rw [if_neg isFlag]
          split at taken
          · cases taken
            exact ⟨untraced, rfl⟩
          · exact map_behindTrace (fun _ => Given.value_behindTrace) taken untraced
          · exact map_behindTrace (fun _ => Given.value_behindTrace) taken untraced

theorem readName_behindTrace {written : List Char}
    (taken : readName understood given written = .ok (after, pending))
    (untraced : after.has .trace = false) :
    given.has .trace = false ∧
      readName understood given.behindTrace written = .ok (after.behindTrace, pending) := by
  unfold readName at taken ⊢
  dsimp only at taken ⊢
  split at taken
  · cases taken
  · rename_i setting _
    by_cases isFlag : setting.placeholder?.isNone = true
    · rw [if_pos isFlag] at taken
      rw [if_pos isFlag]
      by_cases hasValue : (cutAtEquals written).2.isSome = true
      · rw [if_pos hasValue] at taken
        cases taken
      · rw [if_neg hasValue] at taken ⊢
        exact map_behindTrace (fun _ => Given.flag_behindTrace) taken untraced
    · rw [if_neg isFlag] at taken
      rw [if_neg isFlag]
      split at taken
      · exact map_behindTrace (fun _ => Given.value_behindTrace) taken untraced
      · cases taken
        exact ⟨untraced, rfl⟩

theorem readSetting_behindTrace {argument : String}
    (taken : readSetting understood given argument = .ok (after, pending))
    (untraced : after.has .trace = false) :
    given.has .trace = false ∧
      readSetting understood given.behindTrace argument = .ok (after.behindTrace, pending) := by
  unfold readSetting at taken ⊢
  split at taken
  · exact readName_behindTrace taken untraced
  · exact readLetters_behindTrace taken untraced
  · cases taken

theorem readBehind_behindTrace {arguments : List String}
    (taken : readBehind understood given arguments = .ok after)
    (untraced : after.has .trace = false) :
    given.has .trace = false ∧
      readBehind understood given.behindTrace arguments = .ok after.behindTrace := by
  fun_induction readBehind understood given arguments with
  | case1 given =>
      cases taken
      exact ⟨untraced, rfl⟩
  | case2 given rest =>
      have words := Given.words_behindTrace taken untraced
      rwa [readBehind, if_pos rfl]
  | case3 given argument rest notLast isSetting e failed => cases taken
  | case4 given argument rest notLast isSetting between read ih =>
      rcases ih taken with ⟨untracedBetween, restBehindTrace⟩
      rcases readSetting_behindTrace read untracedBetween with ⟨untracedBefore, readBehindTrace⟩
      refine ⟨untracedBefore, ?_⟩
      rw [readBehind, if_neg notLast, if_pos isSetting, readBehindTrace]
      exact restBehindTrace
  | case5 given argument notLast isSetting between setting read => cases taken
  | case6 given argument notLast isSetting between setting read text rest isSetting' => cases taken
  | case7 given argument notLast isSetting between setting read text rest isText e failed =>
      cases taken
  | case8 given argument notLast isSetting between setting read text rest isText valued value ih =>
      rcases ih taken with ⟨untracedValued, restBehindTrace⟩
      rcases Given.value_behindTrace value untracedValued with ⟨untracedBetween, valueBehindTrace⟩
      rcases readSetting_behindTrace read untracedBetween with ⟨untracedBefore, readBehindTrace⟩
      refine ⟨untracedBefore, ?_⟩
      rw [readBehind, if_neg notLast, if_pos isSetting, readBehindTrace]
      dsimp only
      rw [if_neg isText, valueBehindTrace]
      exact restBehindTrace
  | case9 given argument rest notLast isWord e failed => cases taken
  | case10 given argument rest notLast isWord between word ih =>
      rcases ih taken with ⟨untracedBetween, restBehindTrace⟩
      rcases Given.word_behindTrace word untracedBetween with ⟨untracedBefore, wordBehindTrace⟩
      refine ⟨untracedBefore, ?_⟩
      rw [readBehind, if_neg notLast, if_neg isWord, wordBehindTrace]
      exact restBehindTrace

end

/-- Asking for a trace in front of its other arguments only adds the trace to a run. -/
theorem requestOf_trace {before : Given} {arguments : List String} {invocation : Invocation}
    {limit : Nat}
    (untraced : requestOf .run before arguments =
      .perform { invocation with command := .run limit false }) :
    requestOf .run before ("--trace" :: arguments) =
      .perform { invocation with command := .run limit true } := by
  have traceFirst : readBehind (Setting.of .run) Given.nothing ("--trace" :: arguments) =
      readBehind (Setting.of .run) Given.nothing.behindTrace arguments := rfl
  unfold requestOf at untraced ⊢
  rw [traceFirst]
  cases read : readBehind (Setting.of .run) Given.nothing arguments with
  | error e =>
      rw [read] at untraced
      cases e <;> cases untraced
  | ok given =>
      rw [read] at untraced
      dsimp only at untraced
      split at untraced
      · rename_i program onlyProgram
        simp only [Request.perform.injEq, Invocation.mk.injEq, commandOf,
          Command.run.injEq] at untraced
        rcases untraced with ⟨⟨sameLimit, noTrace⟩, sameProgram, sameModel, sameLog⟩
        have traced : given.behindTrace.has .trace = true := by
          simp [Given.has, Given.behindTrace]
        rw [(readBehind_behindTrace read noTrace).2]
        have sameWords : given.behindTrace.words = [program] := onlyProgram
        dsimp only
        rw [sameWords]
        simp only [Request.perform.injEq, Invocation.mk.injEq, commandOf, Command.run.injEq]
        exact ⟨⟨sameLimit, traced⟩, sameProgram, sameModel, sameLog⟩
      · cases untraced

end CommandLine
end SmallScale
