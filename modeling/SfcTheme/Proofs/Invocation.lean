import SfcTheme.Command.Invocation

set_option autoImplicit false

namespace SfcTheme

namespace Task

def file : Task → Text
  | .transform file _ _ _ | .inspect file _ | .validate file => file

def output? : Task → Option Text
  | .transform _ _ _ output => output
  | .inspect _ _ | .validate _ => none

end Task

namespace Invocation

theorem task_of_programText? {args : List Argument} {i : Invocation}
    (h : programText? args = some i) (verbose : Bool) (t : Task) : i ≠ .task verbose t := by
  obtain ⟨a, _, ha⟩ := List.exists_of_findSome?_eq_some h
  split at ha <;> cases ha <;> simp

theorem ofUnknown_ne_task (name : Text) (words : List Text) (verbose : Bool) (t : Task) :
    ofUnknown name words ≠ .task verbose t := by
  unfold ofUnknown
  split
  · simp
  · next args _ =>
    cases h : programText? args with
    | none => simp
    | some i => exact task_of_programText? h verbose t

theorem ofCommand_of_ofWords {tree : FileTree} {words : List Text} {verbose : Bool} {t : Task}
    (h : ofWords tree words = .task verbose t) :
    ∃ v command rest, ofCommand tree v command rest = .task verbose t := by
  unfold ofWords at h
  split at h
  · cases h
  · split at h
    · cases h
    · next args _ =>
      cases hp : programText? args with
      | some text =>
        simp only [hp] at h
        exact absurd h (task_of_programText? hp verbose t)
      | none =>
        cases ho : Argument.operands args with
        | nil =>
          simp only [hp, ho] at h
          cases h
        | cons name rest =>
          simp only [hp, ho] at h
          split at h
          · exact ⟨_, _, _, h⟩
          · exact absurd h (ofUnknown_ne_task name rest verbose t)

theorem fileFault?_eq_none {node? : Text → Option Node} {args : List Argument}
    (h : pathFault?.fileFault? node? args = none) :
    ∃ path octets, Argument.operands args = [path] ∧ node? path = some (.file octets) := by
  unfold pathFault?.fileFault? at h
  split at h
  · cases h
  · next path extra ho =>
    split at h
    · cases h
    · cases h
    · next octets hn =>
      split at h
      · next he => exact ⟨path, octets, by rw [ho, he], hn⟩
      · cases h

theorem pathFault?_eq_none {tree : FileTree} {args : List Argument}
    (h : pathFault? tree args = none) :
    (∃ path place octets, Argument.operands args = [path] ∧
      tree.find? path = some (place, .file octets)) ∧
    ∀ path, Argument.lastValue? .output args = some path →
      ∀ place, tree.find? path ≠ some (place, .directory) := by
  have file (hf : pathFault?.fileFault? (fun path => (tree.find? path).map Prod.snd) args = none) :
      ∃ path place octets, Argument.operands args = [path] ∧
        tree.find? path = some (place, .file octets) := by
    obtain ⟨path, octets, ho, hn⟩ := fileFault?_eq_none hf
    obtain ⟨⟨place, _⟩, hn, rfl⟩ := Option.map_eq_some_iff.1 hn
    exact ⟨path, place, octets, ho, hn⟩
  unfold pathFault? at h
  cases hl : Argument.lastValue? .output args with
  | none =>
    simp only [hl] at h
    exact ⟨file h, fun path hp => by cases hp⟩
  | some out =>
    simp only [hl] at h
    split at h
    · cases h
    · next hn =>
      refine ⟨file h, fun path hp place hf => hn ?_⟩
      cases hp
      rw [hf]
      rfl

/-- A task has a file that is there, and its output is not a directory. -/
theorem checked_of_ofWords {tree : FileTree} {words : List Text} {verbose : Bool} {t : Task}
    (h : ofWords tree words = .task verbose t) :
    (∃ place octets, tree.find? t.file = some (place, .file octets)) ∧
      ∀ path, t.output? = some path →
        path ≠ [] ∧ ∀ place, tree.find? path ≠ some (place, .directory) := by
  obtain ⟨v, command, rest, h⟩ := ofCommand_of_ofWords h
  unfold ofCommand at h
  split at h
  · cases h
  · next args _ =>
    split at h
    · cases h
    · split at h
      · cases h
      · next hf =>
        obtain ⟨⟨path, place, octets, hp, hfile⟩, hout⟩ := pathFault?_eq_none hf
        cases h
        rw [hp]
        refine ⟨⟨place, octets, ?_⟩, fun out ho => ?_⟩
        · cases command <;> exact hfile
        · cases command with
          | transform =>
            obtain ⟨ho, hne⟩ := Option.filter_eq_some_iff.1 ho
            exact ⟨by simpa using hne, hout out ho⟩
          | inspect => cases ho
          | validate => cases ho

end Invocation

end SfcTheme
