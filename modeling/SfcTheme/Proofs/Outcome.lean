import SfcTheme.Command.Task
import SfcTheme.Proofs.FileTree
import SfcTheme.Proofs.FixedPoint
import SfcTheme.Proofs.Invocation

set_option autoImplicit false

namespace SfcTheme

namespace Text

/-- No control sequence begins anywhere in the text. -/
def Plain (s : Text) : Prop := ∀ r, r <:+ s → afterControl? r = none

theorem withoutControls_of_some {s r : Text} (h : afterControl? s = some r) :
    withoutControls s = withoutControls r := by
  rw [withoutControls]
  split
  · next r' h' => rw [h] at h'; cases h'; rfl
  · next h' => rw [h] at h'; cases h'

theorem withoutControls_of_none {c : Char} {s : Text} (h : afterControl? (c :: s) = none) :
    withoutControls (c :: s) = c :: withoutControls s := by
  rw [withoutControls]
  split
  · next r h' => rw [h] at h'; cases h'
  · rfl

theorem length_withoutControls_le (s : Text) : (withoutControls s).length ≤ s.length := by
  fun_induction withoutControls s with
  | case1 s r h hl ih => omega
  | case2 h => exact Nat.le_refl _
  | case3 c t h ih => simpa using ih

theorem Plain.of_cons {c : Char} {s : Text} (h : Plain (c :: s)) : s.Plain := fun r hr =>
  h r (hr.trans (List.suffix_cons c s))

theorem plain_cons_iff {c : Char} {s : Text} :
    Plain (c :: s) ↔ afterControl? (c :: s) = none ∧ s.Plain := by
  refine ⟨fun h => ⟨h _ (List.suffix_refl _), h.of_cons⟩, fun ⟨hc, hs⟩ r hr => ?_⟩
  rcases List.suffix_cons_iff.1 hr with rfl | hr
  · exact hc
  · exact hs r hr

theorem withoutControls_eq_self_iff (s : Text) : withoutControls s = s ↔ s.Plain := by
  induction s with
  | nil => simp [withoutControls, Plain, afterControl?]
  | cons c s ih =>
    cases h : afterControl? (c :: s) with
    | some r =>
      have hlt : (withoutControls (c :: s)).length < (c :: s).length := by
        rw [withoutControls_of_some h]
        exact Nat.lt_of_le_of_lt (length_withoutControls_le r) (afterControl?_length h)
      refine ⟨fun he => absurd hlt (by rw [he]; exact Nat.lt_irrefl _), fun hp => ?_⟩
      rw [hp _ (List.suffix_refl _)] at h
      cases h
    | none =>
      rw [withoutControls_of_none h, List.cons_inj_right, ih, plain_cons_iff, and_iff_right h]

end Text

namespace Event

theorem printed_append (stream : Stream) (es es' : List Event) :
    printed stream (es ++ es') = printed stream es ++ printed stream es' := List.flatMap_append

theorem printed_eq_nil {stream : Stream} {es : List Event} (h : ∀ e ∈ es, textOn stream e = []) :
    printed stream es = [] :=
  List.flatMap_eq_nil_iff.2 h

end Event

namespace Build

def themeConfig (theme : Option Text) : OrderedMap Text Datum :=
  .ofList [("theme", (theme.map Datum.text).getD .null)]

/-- A build step alone that the theme is chosen for has `text` as its output. -/
def Emits (theme : Option Text) (source text : Text) : Prop :=
  ∀ chain path, (load (themeConfig theme) chain source path).map result = .ok (.ok text)

theorem emits_of_parse {source : Text} {c : Component} (h : Component.parse source true = .ok c)
    (theme : Option Text) : Emits theme source (c.themed theme).source := by
  have hs : Settings.ofConfig (themeConfig theme) = .ok ⟨theme, false⟩ := by
    cases theme <;> rfl
  intro chain path
  rw [load_result hs, output, h]
  rfl

theorem Emits.unique {theme : Option Text} {source text text' : Text}
    (h : Emits theme source text) (h' : Emits theme source text') : text = text' := by
  have he := (h .default []).symm.trans (h' .default [])
  cases he
  rfl

theorem printed_out_announced (settings : Settings) (source path : Text) :
    Event.printed .out (announced settings ⟨[], some (.console .err)⟩ source path).events = [] := by
  refine Event.printed_eq_nil fun e he => ?_
  rcases List.mem_cons.1 he with rfl | he
  · rfl
  · unfold run at he
    split at he
    · cases he
    · next c _ =>
      have hlog : ∀ e ∈ c.parseEvent :: c.themeEvents settings.theme, e.textOn .out = [] := by
        intro e he
        rcases List.mem_cons.1 he with rfl | he
        · rfl
        · obtain ⟨d, _, rfl⟩ := List.mem_map.1 he
          rfl
      dsimp only at he
      split at he
      · rcases List.mem_append.1 he with he | he
        · exact hlog e he
        · cases List.mem_singleton.1 he
          rfl
      · exact hlog e he

end Build

namespace Outcome

/-- The command fails, says so on the error stream only, and no file is another than before. -/
structure GivesUp (tree : FileTree) (o : Outcome) : Prop where
  exitCode : o.exitCode = 1
  stdout : o.stdout = []
  tree : o.tree = tree
  crash : o.crash = none

end Outcome

namespace Task

open FileTree (Writable tidied)

theorem givesUp_failed {tree : FileTree} {events : List Event}
    (h : Event.printed .out events = []) (line : Text) :
    (failed tree events line).GivesUp tree := by
  refine ⟨rfl, ?_, rfl, rfl⟩
  rw [Outcome.stdout, failed, Event.printed_append, h]
  rfl

theorem component_eq_ok_iff {tree : FileTree} {file : Text} {c : Component} :
    tree.component file = .ok c ↔
      ∃ source, tree.source file = .ok source ∧ Component.parse source true = .ok c := by
  unfold FileTree.component
  cases tree.source file with
  | error f => simp
  | ok source => cases hp : Component.parse source true <;> simp [hp, Except.mapError]

theorem givesUp_transformed {tree : FileTree} {file : Text} {f : SourceFault}
    (h : tree.component file = .error f) (settings : Settings) (output : Option Text) :
    (transformed tree file settings output).GivesUp tree := by
  unfold FileTree.component at h
  unfold transformed
  split at h
  · exact givesUp_failed rfl _
  · next source _ =>
    cases hp : Component.parse source true with
    | ok c => rw [hp] at h; cases h
    | error e =>
      have hr : (Build.announced settings ⟨[], some (.console .err)⟩ source
          (tidied file)).result = .error e := by
        rw [Build.announced_result, Build.output, hp]
        rfl
      simp only [hr]
      exact givesUp_failed (Build.printed_out_announced settings source _) _

theorem givesUp_run {tree : FileTree} {t : Task} {f : SourceFault}
    (h : tree.component t.file = .error f) : (t.run tree).GivesUp tree := by
  cases t with
  | transform file theme debug output => exact givesUp_transformed h ⟨theme, debug⟩ output
  | inspect file theme =>
    have h : tree.component file = .error f := h
    rw [run, answered, h]
    exact givesUp_failed rfl _
  | validate file =>
    have h : tree.component file = .error f := h
    rw [run, answered, h]
    exact givesUp_failed rfl _

theorem transformed_of_component {tree : FileTree} {file : Text} {c : Component}
    (h : tree.component file = .ok c) (settings : Settings) (output : Option Text) :
    ∃ events, Event.printed .out events = [] ∧ transformed tree file settings output =
      deliver tree events (c.themed settings.theme).source output := by
  obtain ⟨source, hs, hp⟩ := component_eq_ok_iff.1 h
  refine ⟨_, Build.printed_out_announced settings source (tidied file), ?_⟩
  have hr : (Build.announced settings ⟨[], some (.console .err)⟩ source (tidied file)).result =
      .ok (c.themed settings.theme).source := by
    rw [Build.announced_result, Build.output, hp]
    rfl
  rw [transformed, hs]
  simp only [hr]

theorem stdout_deliver {tree : FileTree} {events : List Event}
    (h : Event.printed .out events = []) (text : Text) :
    (deliver tree events text none).stdout = text.withoutControls := by
  rw [Outcome.stdout, deliver, Event.printed_append, h]
  simp [Event.printed, Event.textOn]

theorem deliver_of_writable {tree : FileTree} {events : List Event} {path : Text}
    (h : Event.printed .out events = []) (hw : tree.Writable path) (text : Text) :
    (deliver tree events text (some path)).exitCode = 0 ∧
      (deliver tree events text (some path)).stdout = [] ∧
      tree.write path (Text.Utf8.encode text) =
        .ok (deliver tree events text (some path)).tree := by
  obtain ⟨after, ha⟩ := (FileTree.writable_iff (Text.Utf8.encode text)).1 hw
  rw [deliver, ha]
  refine ⟨rfl, ?_, rfl⟩
  rw [Outcome.stdout, Event.printed_append, h]
  rfl

/-- What a task leaves behind if its file holds the component `c`. -/
def Done (tree : FileTree) (c : Component) (o : Outcome) : Task → Prop
  | .inspect _ _ | .transform _ _ _ none => o.exitCode = 0 ∧ o.tree = tree
  | .validate _ => o.exitCode = validationCode (c.findings []) ∧ o.tree = tree
  | .transform file theme _ (some path) => tree.Writable path →
    o.exitCode = 0 ∧ o.stdout = [] ∧ o.tree.Rooted ∧
      ∃ source text, tree.source file = .ok source ∧ Build.Emits theme source text ∧
        tree.Rewritten o.tree path (Text.Utf8.encode text)

theorem done_run {tree : FileTree} (hr : tree.Rooted) {t : Task} {c : Component}
    (h : tree.component t.file = .ok c)
    (hout : ∀ path, t.output? = some path →
      path ≠ [] ∧ ∀ place, tree.find? path ≠ some (place, .directory)) :
    t.Done tree c (t.run tree) := by
  cases t with
  | inspect file theme =>
    have h : tree.component file = .ok c := h
    rw [run, answered, h]
    exact ⟨rfl, rfl⟩
  | validate file =>
    have h : tree.component file = .ok c := h
    rw [run, answered, h]
    exact ⟨rfl, rfl⟩
  | transform file theme debug output =>
    have h : tree.component file = .ok c := h
    obtain ⟨events, he, ht⟩ := transformed_of_component h ⟨theme, debug⟩ output
    rw [run, ht]
    cases output with
    | none => exact ⟨rfl, rfl⟩
    | some path =>
      intro hw
      obtain ⟨hcode, hstdout, hwrite⟩ := deliver_of_writable he hw (c.themed theme).source
      obtain ⟨hne, hd⟩ := hout path rfl
      obtain ⟨hrooted, hrewritten⟩ := FileTree.rewritten_of_write hr hne hd hwrite
      obtain ⟨source, hs, hp⟩ := component_eq_ok_iff.1 h
      exact ⟨hcode, hstdout, hrooted, source, _, hs, Build.emits_of_parse hp theme, hrewritten⟩

end Task

section

variable {tree : FileTree} {words : List Text} {verbose : Bool} {t : Task}
  (h : Invocation.ofWords tree words = .task verbose t)

include h

theorem execute_task : (execute tree words).exitCode = (t.run tree).exitCode ∧
    (execute tree words).stdout = (t.run tree).stdout ∧
    (execute tree words).tree = (t.run tree).tree ∧
    (execute tree words).crash = (t.run tree).crash := by
  rw [execute, h]
  exact ⟨rfl, Event.printed_out_shown _ _, rfl, rfl⟩

theorem givesUp_execute {f : SourceFault} (hf : tree.component t.file = .error f) :
    (execute tree words).GivesUp tree := by
  obtain ⟨hcode, hstdout, htree, hcrash⟩ := execute_task h
  have hg := Task.givesUp_run hf
  exact ⟨hcode.trans hg.exitCode, hstdout.trans hg.stdout, htree.trans hg.tree,
    hcrash.trans hg.crash⟩

/-- A command whose words have passed the checks has a file that is there. All commands give up on
the same files, those without a component, and then change nothing. On all others they end well, and
a transformation changes the file that is named for it and no other one. -/
theorem execute_gives_up_or_done (hr : tree.Rooted) :
    (∃ place octets, tree.find? t.file = some (place, .file octets)) ∧
      (∀ f, tree.component t.file = .error f → (execute tree words).GivesUp tree) ∧
      ∀ c, tree.component t.file = .ok c → t.Done tree c (execute tree words) := by
  obtain ⟨hfile, hout⟩ := Invocation.checked_of_ofWords h
  refine ⟨hfile, fun f => givesUp_execute h, fun c hc => ?_⟩
  have hd := Task.done_run hr hc hout
  obtain ⟨hcode, hstdout, htree, _⟩ := execute_task h
  cases t with
  | inspect | validate => rwa [Task.Done, hcode, htree]
  | transform file theme debug output =>
    cases output with
    | none => rwa [Task.Done, hcode, htree]
    | some path => rwa [Task.Done, hcode, hstdout, htree]

end

/-- A file with a style block that is written back to itself, one that is no text, and an output
that is named by an empty word. -/
theorem execute_gives_up_or_done_in_place :
    let good : List UInt8 := Text.Utf8.encode "<style theme=d>\r\n p</style>"
    let tree : FileTree := ⟨.ofList [(["w"], .directory), (["w", "a.vue"], .file good),
      (["w", "b.vue"], .file [0x3C, 0xFF])], ["w"]⟩
    let inPlace : List Text := ["transform", "a.vue", "--theme=d", "-oa.vue"]
    let unreadable : List Text := ["-v", "transform", "-o", "a.vue", "b.vue"]
    let nowhere : List Text := ["transform", "a.vue", "-o", ""]
    let text : Text := "\n\n<style>\np</style>\n"
    tree.Rooted ∧
      ((execute tree inPlace).exitCode = 0 ∧ (execute tree inPlace).stdout = [] ∧
        tree.Rewritten (execute tree inPlace).tree "a.vue" (Text.Utf8.encode text)) ∧
      (execute tree unreadable).GivesUp tree ∧
      (execute tree nowhere).exitCode = 0 ∧ (execute tree nowhere).tree = tree := by
  intro good tree inPlace unreadable nowhere text
  have hr : tree.Rooted := by decide +kernel
  have h₁ : Invocation.ofWords tree inPlace =
      .task false (.transform "a.vue" (some ['d']) false (some "a.vue")) := by decide +kernel
  have h₂ : Invocation.ofWords tree unreadable =
      .task true (.transform "b.vue" none false (some "a.vue")) := by decide +kernel
  have h₃ : Invocation.ofWords tree nowhere = .task false (.transform "a.vue" none false none) := by
    decide +kernel
  have hs : tree.source "a.vue" = .ok "<style theme=d>\n p</style>" := by decide +kernel
  have hp : Component.parse "<style theme=d>\n p</style>" true =
      .ok ⟨none, none, [⟨"\np", .ofList [("theme", .text ['d'])]⟩], []⟩ := by
    decide +kernel
  have hc := Task.component_eq_ok_iff.2 ⟨_, hs, hp⟩
  have hw : tree.Writable "a.vue" := ⟨["w"], by decide +kernel, by decide +kernel⟩
  have hu : tree.source "b.vue" = .error ⟨1, 1, 0xFF, .start⟩ := by decide +kernel
  have hf : tree.component "b.vue" = .error (.encoding ⟨1, 1, 0xFF, .start⟩) := by
    rw [FileTree.component, hu]
  obtain ⟨_, _, done₁⟩ := execute_gives_up_or_done h₁ hr
  obtain ⟨_, givesUp₂, _⟩ := execute_gives_up_or_done h₂ hr
  obtain ⟨_, _, done₃⟩ := execute_gives_up_or_done h₃ hr
  obtain ⟨hcode, hstdout, _, source, text', hs', ht', hwritten⟩ := done₁ _ hc hw
  rw [hs] at hs'
  cases hs'
  have ht : text' = text := ht'.unique (Build.emits_of_parse hp (some ['d']))
  rw [ht] at hwritten
  exact ⟨hr, ⟨hcode, hstdout, hwritten⟩, givesUp₂ _ hf, done₃ _ hc⟩

section

variable {tree : FileTree} {words words' : List Text} {verbose verbose' debug debug' : Bool}
  {file path : Text} {theme : Option Text} {c : Component}

/-- The file that is named for a transformation holds its text as it is. The standard output has it
without its control sequences, so it is the same text if it has none, and only then. -/
theorem stdout_eq_written_iff (hr : tree.Rooted) (hc : tree.component file = .ok c)
    (h : Invocation.ofWords tree words = .task verbose (.transform file theme debug none))
    (h' : Invocation.ofWords tree words' =
      .task verbose' (.transform file theme debug' (some path)))
    (hw : tree.Writable path) :
    ∃ source text, tree.source file = .ok source ∧ Build.Emits theme source text ∧
      Text.Utf8.decode ((execute tree words').tree.octets (FileTree.tidied path)) = .ok text ∧
      (execute tree words).stdout = text.withoutControls ∧
      ((execute tree words).stdout = text ↔ text.Plain) := by
  have hd : (Task.transform file theme debug' (some path)).Done tree c _ :=
    Task.done_run hr hc (Invocation.checked_of_ofWords h').2
  obtain ⟨_, _, _, source, text, hs, he, place, hfind, _⟩ := hd hw
  have htext : text = (c.themed theme).source := by
    obtain ⟨source', hs', hp⟩ := Task.component_eq_ok_iff.1 hc
    rw [hs] at hs'
    cases hs'
    exact he.unique (Build.emits_of_parse hp theme)
  have hwritten : (execute tree words').tree.octets (FileTree.tidied path) =
      Text.Utf8.encode text := by
    rw [(execute_task h').2.2.1, FileTree.octets, hfind]
  have hstdout : (execute tree words).stdout = text.withoutControls := by
    obtain ⟨events, hevents, ht⟩ := Task.transformed_of_component hc ⟨theme, debug⟩ none
    rw [(execute_task h).2.1, Task.run, ht, Task.stdout_deliver hevents, htext]
  refine ⟨source, text, hs, he, ?_, hstdout, ?_⟩
  · rw [hwritten, Text.Utf8.decode_encode]
  · rw [hstdout, Text.withoutControls_eq_self_iff]

end

/-- An escape alone is no control sequence. -/
theorem stdout_eq_written_iff_lone_escape :
    let text : Text := "\n<script>\x1b</script>\n\n"
    let tree : FileTree := ⟨.ofList [(["w"], .directory),
      (["w", "a.vue"], .file (Text.Utf8.encode "<script>\x1b</script>"))], ["w"]⟩
    let words : List Text := ["transform", "--debug", "a.vue"]
    let words' : List Text := ["-v", "transform", "-o./b.vue", "a.vue"]
    Text.Utf8.decode ((execute tree words').tree.octets "b.vue") = .ok text ∧
      (execute tree words).stdout = text := by
  intro text tree words words'
  have hr : tree.Rooted := by decide +kernel
  have hs : tree.source "a.vue" = .ok "<script>\x1b</script>" := by decide +kernel
  have hp : Component.parse "<script>\x1b</script>" true =
      .ok ⟨none, some ⟨"script", "\x1b", .empty⟩, [], []⟩ := by
    decide +kernel
  have h : Invocation.ofWords tree words =
      .task false (.transform "a.vue" none true none) := by decide +kernel
  have h' : Invocation.ofWords tree words' =
      .task true (.transform "a.vue" none false (some "./b.vue")) := by decide +kernel
  have hw : tree.Writable "./b.vue" := ⟨["w"], by decide +kernel, by decide +kernel⟩
  obtain ⟨source, text', hs', ht', hwritten, _, hiff⟩ :=
    stdout_eq_written_iff hr (Task.component_eq_ok_iff.2 ⟨_, hs, hp⟩) h h' hw
  rw [hs] at hs'
  cases hs'
  have ht : text' = text := ht'.unique (Build.emits_of_parse hp none)
  rw [ht] at hwritten hiff
  refine ⟨hwritten, hiff.2 ((Text.withoutControls_eq_self_iff text).1 ?_)⟩
  decide +kernel

/-- A script that writes in colour loses its colours on the standard output. -/
theorem stdout_ne_written_colour :
    let source : Text := "<script>\x1b[31m</script>"
    let text : Text := "\n<script>\x1b[31m</script>\n\n"
    let tree : FileTree := ⟨.ofList [(["w"], .directory),
      (["w", "a.vue"], .file (Text.Utf8.encode source))], ["w"]⟩
    tree.source "a.vue" = .ok source ∧ Build.Emits none source text ∧
      Text.Utf8.decode ((execute tree ["transform", "a.vue", "-o", "b.vue"]).tree.octets "b.vue") =
        .ok text ∧
      (execute tree ["transform", "a.vue"]).stdout = "\n<script></script>\n\n" ∧
      (execute tree ["transform", "a.vue"]).stdout ≠ text := by
  intro source text tree
  have hp : Component.parse source true =
      .ok ⟨none, some ⟨"script", "\x1b[31m", .empty⟩, [], []⟩ := by
    decide +kernel
  have hstdout : (execute tree ["transform", "a.vue"]).stdout = "\n<script></script>\n\n" := by
    decide +kernel
  refine ⟨by decide +kernel, Build.emits_of_parse hp none, by decide +kernel, hstdout, ?_⟩
  rw [hstdout]
  decide

end SfcTheme
