import SfcTheme.Proofs.Outcome

/-!
The switches that ask for diagnostics. One of them more on a command line, where it stands for
itself, leaves the exit code, the standard output and the files as they are, whatever else the
command line says and however the command ends.
-/

set_option autoImplicit false

namespace SfcTheme

namespace Argument

/-- After these words another one would stand for itself: no switch wants it as a value, and
switches are still looked for. Behind a faulty switch nothing is read any more. -/
def readsOwn (known : List Switch) (mixed : Bool) : Pending → List Text → Bool
  | some _, [] => false
  | some _, _ :: words => readsOwn known mixed none words
  | none, [] => true
  | none, word :: words =>
    if word = ['-', '-'] then false
    else if isSwitchWord word then
      match ofSwitchWord known word with
      | .error _ => true
      | .ok (_, pending) => readsOwn known mixed pending words
    else mixed && readsOwn known mixed none words

theorem operands_append (xs ys : List Argument) :
    operands (xs ++ ys) = operands xs ++ operands ys :=
  List.filterMap_append

theorem operands_map_operand (words : List Text) : operands (words.map .operand) = words := by
  rw [operands, List.filterMap_map]
  exact List.filterMap_some

theorem operands_of_ofShorts {known : List Switch} {cs : Text} {args : List Argument}
    {pending : Pending} (h : ofShorts known cs = .ok (args, pending)) : operands args = [] := by
  induction cs generalizing args pending with
  | nil => cases h; rfl
  | cons c cs ih =>
    rw [ofShorts] at h
    split at h
    · cases h
    · split at h
      · split at h <;> cases h <;> rfl
      · cases hr : ofShorts known cs with
        | error f => rw [hr] at h; cases h
        | ok r =>
          obtain ⟨rest, _⟩ := r
          rw [hr] at h
          cases h
          have hrest : operands rest = [] := ih hr
          exact hrest

theorem operands_of_ofSwitchWord {known : List Switch} {word : Text} {args : List Argument}
    {pending : Pending} (h : ofSwitchWord known word = .ok (args, pending)) :
    operands args = [] := by
  unfold ofSwitchWord at h
  split at h
  · unfold ofLong at h
    dsimp only at h
    split at h
    · cases h
    · split at h <;> cases h <;> rfl
  · exact operands_of_ofShorts h

section

variable {known : List Switch} {mixed : Bool}

/-- One step of reading. The first word is refused whatever follows it, or it gives its arguments
and what follows is read on from there. -/
theorem ofWords_cons_of_readsOwn {pending : Pending} {word : Text} {words : List Text}
    (h : readsOwn known mixed pending (word :: words) = true) :
    (∃ f, ∀ rest, ofWords known mixed pending (word :: rest) = .error f) ∨
      ∃ first next, readsOwn known mixed next words = true ∧
        (mixed = false → operands first = []) ∧
        ∀ rest, ofWords known mixed pending (word :: rest) =
          (ofWords known mixed next rest).map (first ++ ·) := by
  cases pending with
  | some p => exact .inr ⟨[.setting p.1 word], none, h, fun _ => rfl, fun _ => rfl⟩
  | none =>
    simp only [readsOwn, ofWords] at h ⊢
    by_cases hd : word = ['-', '-']
    · rw [if_pos hd] at h
      cases h
    simp only [if_neg hd] at h ⊢
    cases hs : isSwitchWord word with
    | true =>
      simp only [hs, if_true] at h ⊢
      cases hf : ofSwitchWord known word with
      | error f => exact .inl ⟨f, fun _ => rfl⟩
      | ok r =>
        rw [hf] at h
        exact .inr ⟨r.1, r.2, h, fun _ => operands_of_ofSwitchWord hf, fun _ => rfl⟩
    | false =>
      simp only [hs, Bool.false_eq_true, if_false, Bool.and_eq_true] at h ⊢
      obtain ⟨rfl, h⟩ := h
      exact .inr ⟨[.operand word], none, h, fun hm => (by cases hm), fun _ => rfl⟩

theorem ofWords_append {pending : Pending} {before : List Text}
    (h : readsOwn known mixed pending before = true) (after : List Text) :
    ofWords known mixed pending (before ++ after) = (ofWords known mixed pending before).bind
      fun args => (ofWords known mixed none after).map (args ++ ·) := by
  induction before generalizing pending with
  | nil =>
    cases pending with
    | some p => cases h
    | none =>
      rw [List.nil_append, ofWords]
      cases ofWords known mixed none after <;> rfl
  | cons word words ih =>
    rw [List.cons_append]
    obtain ⟨f, hf⟩ | ⟨first, next, hnext, _, hread⟩ := ofWords_cons_of_readsOwn h
    · rw [hf, hf]
      rfl
    · rw [hread, hread, ih hnext]
      cases ofWords known mixed next words <;> cases ofWords known mixed none after <;>
        simp [Except.map, Except.bind]

theorem operands_of_readsOwn {pending : Pending} {words : List Text} {args : List Argument}
    (h : readsOwn known false pending words = true)
    (ha : ofWords known false pending words = .ok args) : operands args = [] := by
  induction words generalizing pending args with
  | nil =>
    cases pending with
    | some p => cases h
    | none => cases ha; rfl
  | cons word words ih =>
    obtain ⟨f, hf⟩ | ⟨first, next, hnext, hfirst, hread⟩ := ofWords_cons_of_readsOwn h
    · rw [hf] at ha
      cases ha
    · rw [hread] at ha
      cases hr : ofWords known false next words with
      | error f => rw [hr] at ha; cases ha
      | ok rest =>
        rw [hr] at ha
        cases ha
        rw [operands_append, hfirst rfl, ih hnext hr, List.nil_append]

structure IsFlagWord (known : List Switch) (s : Switch) (word : Text) : Prop where
  dashes : word ≠ ['-', '-']
  isSwitch : isSwitchWord word = true
  flag : ofSwitchWord known word = .ok ([.flag s], none)

theorem ofWords_flag {s : Switch} {word : Text} {before : List Text}
    (h : readsOwn known mixed none before = true) (hw : IsFlagWord known s word)
    (after : List Text) :
    (∃ f, ofWords known mixed none (before ++ after) = .error f ∧
      ofWords known mixed none (before ++ word :: after) = .error f) ∨
    ∃ xs ys, ofWords known mixed none (before ++ after) = .ok (xs ++ ys) ∧
      ofWords known mixed none (before ++ word :: after) = .ok (xs ++ .flag s :: ys) := by
  have hflag : ofWords known mixed none (word :: after) =
      (ofWords known mixed none after).map (.flag s :: ·) := by
    rw [ofWords, if_neg hw.dashes, if_pos hw.isSwitch, hw.flag]
    rfl
  rw [ofWords_append h, ofWords_append h, hflag]
  cases ofWords known mixed none before with
  | error f => exact .inl ⟨f, rfl, rfl⟩
  | ok xs =>
    cases ofWords known mixed none after with
    | error f => exact .inl ⟨f, rfl, rfl⟩
    | ok ys => exact .inr ⟨xs, ys, rfl, rfl⟩

end

/-! One flag more. -/

section

variable (s : Switch) (xs ys : List Argument)

theorem operands_flag : operands (xs ++ .flag s :: ys) = operands (xs ++ ys) := by
  rw [operands_append, operands_append]
  rfl

theorem lastValue?_flag (s' : Switch) :
    lastValue? s' (xs ++ .flag s :: ys) = lastValue? s' (xs ++ ys) := by
  simp [lastValue?]

theorem hasFlag_flag {s' : Switch} (h : s' ≠ s) :
    hasFlag s' (xs ++ .flag s :: ys) = hasFlag s' (xs ++ ys) := by
  simp [hasFlag, h]

theorem programText?_flag (h : s ≠ .help) (h' : s ≠ .version) :
    Invocation.programText? (xs ++ .flag s :: ys) = Invocation.programText? (xs ++ ys) := by
  rw [Invocation.programText?, Invocation.programText?, List.findSome?_append,
    List.findSome?_append, List.findSome?_cons_of_isNone]
  cases s <;> simp_all

end

/-! Operands behind all switches. -/

theorem hasFlag_append_operands (s : Switch) (args : List Argument) (words : List Text) :
    hasFlag s (args ++ words.map .operand) = hasFlag s args := by
  simp [hasFlag]

theorem programText?_append_operands (args : List Argument) (words : List Text) :
    Invocation.programText? (args ++ words.map .operand) = Invocation.programText? args := by
  unfold Invocation.programText?
  rw [List.findSome?_append, List.findSome?_map, Option.or_eq_left_of_none]
  exact List.findSome?_eq_none_iff.2 fun _ _ => rfl

end Argument

namespace Outcome

/-- Nothing is different but what is said on the error stream. -/
structure Agrees (a b : Outcome) : Prop where
  exitCode : a.exitCode = b.exitCode
  stdout : a.stdout = b.stdout
  tree : a.tree = b.tree
  crash : a.crash = b.crash

theorem Agrees.refl (a : Outcome) : a.Agrees a := ⟨rfl, rfl, rfl, rfl⟩

theorem GivesUp.agrees {tree : FileTree} {a b : Outcome} (ha : a.GivesUp tree)
    (hb : b.GivesUp tree) : a.Agrees b :=
  ⟨ha.exitCode.trans hb.exitCode.symm, ha.stdout.trans hb.stdout.symm, ha.tree.trans hb.tree.symm,
    ha.crash.trans hb.crash.symm⟩

end Outcome

namespace Task

theorem agrees_deliver {events events' : List Event}
    (h : Event.printed .out events = Event.printed .out events') (tree : FileTree) (text : Text)
    (output : Option Text) :
    (deliver tree events text output).Agrees (deliver tree events' text output) := by
  have hprint (e : Event) : Event.printed .out (events ++ [e]) =
      Event.printed .out (events' ++ [e]) := by
    rw [Event.printed_append, Event.printed_append, h]
  cases output with
  | none => exact ⟨rfl, hprint _, rfl, rfl⟩
  | some path =>
    rw [deliver, deliver]
    split
    · exact ⟨rfl, hprint _, rfl, rfl⟩
    · exact ⟨rfl, h, rfl, rfl⟩

theorem agrees_transformed (tree : FileTree) (file : Text) (theme : Option Text)
    (debug debug' : Bool) (output : Option Text) :
    (transformed tree file ⟨theme, debug⟩ output).Agrees
      (transformed tree file ⟨theme, debug'⟩ output) := by
  cases h : tree.component file with
  | error f =>
    exact (givesUp_transformed h ⟨theme, debug⟩ output).agrees
      (givesUp_transformed h ⟨theme, debug'⟩ output)
  | ok c =>
    obtain ⟨events, he, ht⟩ := transformed_of_component h ⟨theme, debug⟩ output
    obtain ⟨events', he', ht'⟩ := transformed_of_component h ⟨theme, debug'⟩ output
    rw [ht, ht']
    exact agrees_deliver (he.trans he'.symm) tree _ output

end Task

namespace Invocation

theorem run_ofCommand_verbose (tree : FileTree) (v v' : Bool) (command : Command)
    (words : List Text) :
    (ofCommand tree v command words).run tree = (ofCommand tree v' command words).run tree := by
  unfold ofCommand
  split
  · rfl
  · split
    · rfl
    · split <;> rfl

theorem run_ofWords_congr {tree : FileTree} {words words' : List Text} (hne : words ≠ [])
    (hne' : words' ≠ []) {args args' : List Argument}
    (h : Argument.ofWords Command.groupSwitches false none words = .ok args)
    (h' : Argument.ofWords Command.groupSwitches false none words' = .ok args')
    (hp : programText? args = programText? args')
    (ho : Argument.operands args = Argument.operands args') :
    (ofWords tree words).run tree = (ofWords tree words').run tree := by
  rw [ofWords, if_neg hne, h, ofWords, if_neg hne', h']
  simp only [hp, ho]
  split
  · rfl
  · rfl
  · split
    · exact run_ofCommand_verbose tree _ _ _ _
    · rfl

theorem ofName?_name (command : Command) : Command.ofName? command.name = some command := by
  cases command <;> rfl

theorem ofWords_command (tree : FileTree) {group : List Text}
    (h : Argument.readsOwn Command.groupSwitches false none group = true) (command : Command) :
    (∃ i, ∀ rest, ofWords tree (group ++ command.name :: rest) = i) ∨
      ∃ v, ∀ rest, ofWords tree (group ++ command.name :: rest) =
        ofCommand tree v command rest := by
  have hname (rest : List Text) :
      Argument.ofWords Command.groupSwitches false none (command.name :: rest) =
        .ok ((command.name :: rest).map .operand) := by
    cases command <;> rfl
  have hne (rest : List Text) : group ++ command.name :: rest ≠ [] := by simp
  cases hg : Argument.ofWords Command.groupSwitches false none group with
  | error f =>
    refine .inl ⟨.fault none (.word f), fun rest => ?_⟩
    rw [ofWords, if_neg (hne rest), Argument.ofWords_append h, hg]
    rfl
  | ok args =>
    have hargs (rest : List Text) :
        Argument.ofWords Command.groupSwitches false none (group ++ command.name :: rest) =
          .ok (args ++ (command.name :: rest).map .operand) := by
      rw [Argument.ofWords_append h, hg, hname]
      rfl
    have ho (rest : List Text) :
        Argument.operands (args ++ (command.name :: rest).map .operand) = command.name :: rest := by
      rw [Argument.operands_append, Argument.operands_of_readsOwn h hg,
        Argument.operands_map_operand, List.nil_append]
    cases hp : programText? args with
    | some i =>
      refine .inl ⟨i, fun rest => ?_⟩
      rw [ofWords, if_neg (hne rest), hargs]
      simp only [Argument.programText?_append_operands, hp]
    | none =>
      refine .inr ⟨Argument.hasFlag .verbose args, fun rest => ?_⟩
      rw [ofWords, if_neg (hne rest), hargs]
      simp only [Argument.programText?_append_operands, hp, ho, ofName?_name,
        Argument.hasFlag_append_operands]

theorem agrees_ofCommand_debug (tree : FileTree) (v : Bool) {before : List Text}
    (h : Argument.readsOwn Command.transform.switches true none before = true)
    (after : List Text) :
    ((ofCommand tree v .transform (before ++ Switch.debug.long :: after)).run tree).Agrees
      ((ofCommand tree v .transform (before ++ after)).run tree) := by
  have hw : Argument.IsFlagWord Command.transform.switches .debug Switch.debug.long :=
    ⟨by decide, rfl, rfl⟩
  unfold ofCommand
  obtain ⟨f, hf, hf'⟩ | ⟨xs, ys, ha, ha'⟩ := Argument.ofWords_flag h hw after
  · rw [hf, hf']
    exact .refl _
  · rw [ha, ha']
    have hhelp : Argument.hasFlag .help (xs ++ .flag .debug :: ys) =
        Argument.hasFlag .help (xs ++ ys) := Argument.hasFlag_flag .debug xs ys (by decide)
    have hpath : pathFault? tree (xs ++ .flag .debug :: ys) = pathFault? tree (xs ++ ys) := by
      unfold pathFault? pathFault?.fileFault?
      simp only [Argument.lastValue?_flag, Argument.operands_flag]
    simp only [hhelp, hpath, Argument.operands_flag]
    split
    · exact .refl _
    · split
      · exact .refl _
      · simp only [taskOf, Argument.lastValue?_flag]
        exact Task.agrees_transformed tree _ _ _ _ _

end Invocation

theorem agrees_execute {tree : FileTree} {words words' : List Text}
    (h : ((Invocation.ofWords tree words).run tree).Agrees
      ((Invocation.ofWords tree words').run tree)) :
    (execute tree words).Agrees (execute tree words') := by
  refine ⟨h.exitCode, ?_, h.tree, h.crash⟩
  calc (execute tree words).stdout
      = ((Invocation.ofWords tree words).run tree).stdout := Event.printed_out_shown _ _
    _ = ((Invocation.ofWords tree words').run tree).stdout := h.stdout
    _ = (execute tree words').stdout := (Event.printed_out_shown _ _).symm

def verboseWords : List Text := ["-v", "--verbose"]

theorem agrees_ofWords_verbose (tree : FileTree) {before : List Text}
    (h : Argument.readsOwn Command.groupSwitches false none before = true) {word : Text}
    (hw : word ∈ verboseWords) (after : List Text) :
    ((Invocation.ofWords tree (before ++ word :: after)).run tree).Agrees
      ((Invocation.ofWords tree (before ++ after)).run tree) := by
  have hflag : Argument.IsFlagWord Command.groupSwitches .verbose word := by
    rcases List.mem_pair.1 hw with rfl | rfl <;> exact ⟨by decide, rfl, rfl⟩
  have hne : before ++ word :: after ≠ [] := by simp
  by_cases hn : before ++ after = []
  · obtain ⟨rfl, rfl⟩ := List.append_eq_nil_iff.1 hn
    have refused (a b : Text) : Outcome.Agrees ⟨2, [.echo .err a], tree, none⟩
        ⟨2, [.echo .err b], tree, none⟩ := ⟨rfl, rfl, rfl, rfl⟩
    rcases List.mem_pair.1 hw with rfl | rfl <;> exact refused _ _
  · obtain ⟨f, hf, hf'⟩ | ⟨xs, ys, ha, ha'⟩ := Argument.ofWords_flag h hflag after
    · rw [Invocation.ofWords, if_neg hne, hf', Invocation.ofWords, if_neg hn, hf]
      exact .refl _
    · rw [Invocation.run_ofWords_congr hne hn ha' ha
        (Argument.programText?_flag .verbose xs ys (by decide) (by decide))
        (Argument.operands_flag .verbose xs ys)]
      exact .refl _

/-- The switch that asks for the logs, anywhere among the words of the program where it stands for
itself, and the one that asks for a report of the output, anywhere among the words of a
transformation where it does, leave everything as it is but what is said on the error stream. -/
theorem execute_diagnostics (tree : FileTree) (before after : List Text) :
    (Argument.readsOwn Command.groupSwitches false none before = true →
      ∀ word ∈ verboseWords,
        (execute tree (before ++ word :: after)).Agrees (execute tree (before ++ after))) ∧
    ∀ group, Argument.readsOwn Command.groupSwitches false none group = true →
      Argument.readsOwn Command.transform.switches true none before = true →
      (execute tree
        (group ++ Command.transform.name :: (before ++ Switch.debug.long :: after))).Agrees
        (execute tree (group ++ Command.transform.name :: (before ++ after))) := by
  refine ⟨fun h word hw => agrees_execute (agrees_ofWords_verbose tree h hw after), ?_⟩
  intro group hg h
  refine agrees_execute ?_
  obtain ⟨i, hi⟩ | ⟨v, hv⟩ := Invocation.ofWords_command tree hg .transform
  · rw [hi, hi]
    exact .refl _
  · rw [hv, hv]
    exact Invocation.agrees_ofCommand_debug tree v h after

/-- An inspection that is refused for its `-o`, and a transformation whose first `--debug` is the
name of the theme. -/
theorem execute_diagnostics_behind_value :
    let tree : FileTree := ⟨.ofList [(["w"], .directory), (["w", "a.vue"], .file [0x3C])], ["w"]⟩
    let group : List Text := ["--verbose"]
    let before : List Text := ["--theme", "--debug"]
    let after : List Text := ["a.vue", "-o", "b.vue"]
    (execute tree (group ++ ("-v" : Text) :: "inspect" :: after)).Agrees
        (execute tree (group ++ ("inspect" : Text) :: after)) ∧
      (execute tree
        (group ++ ("transform" : Text) :: (before ++ ("--debug" : Text) :: after))).Agrees
        (execute tree (group ++ ("transform" : Text) :: (before ++ after))) := by
  intro tree group before after
  have hg : Argument.readsOwn Command.groupSwitches false none group = true := by decide
  have hb : Argument.readsOwn Command.transform.switches true none before = true := by decide
  exact ⟨(execute_diagnostics tree group ("inspect" :: after)).1 hg "-v" List.mem_cons_self,
    (execute_diagnostics tree before after).2 group hg hb⟩

end SfcTheme
