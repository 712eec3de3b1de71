import SfcTheme.Proofs.Findings
import SfcTheme.Proofs.Decisions
import SfcTheme.Proofs.Outcome

set_option autoImplicit false

namespace SfcTheme

namespace Text

theorem afterControl?_of_ne {c : Char} (h : c ≠ '\x1b') (s : Text) :
    afterControl? (c :: s) = none := by
  unfold afterControl?
  split
  · next e => exact absurd (List.cons.inj e).1 h
  · rfl

theorem plain_of_not_mem {s : Text} (h : '\x1b' ∉ s) : s.Plain := by
  intro r hr
  cases r with
  | nil => rfl
  | cons c r => exact afterControl?_of_ne (fun e => h (hr.subset (by simp [e]))) r

theorem head?_withoutControls {s : Text} {c : Char} (h : s.head? = some c) (hc : c ≠ '\x1b') :
    (withoutControls s).head? = some c := by
  obtain ⟨t, rfl⟩ := List.head?_eq_some_iff.1 h
  rw [withoutControls_of_none (afterControl?_of_ne hc t), List.head?_cons]

theorem escape_not_mem_ofNat (n : Nat) : '\x1b' ∉ ofNat n := fun h =>
  absurd (Nat.isDigit_of_mem_toDigits (by decide) (by decide) h) (by decide)

end Text

namespace Event

theorem printed_map_echo (stream : Stream) (lines : List Text) :
    printed stream (lines.map (echo stream)) =
      lines.flatMap fun line => Text.withoutControls (line ++ ['\n']) := by
  simp [printed, List.flatMap_map, echo, textOn]

theorem printed_shown_false (stream : Stream) (es : List Event) :
    printed stream (es.flatMap (shown false)) = printed stream es := by
  induction es with
  | nil => rfl
  | cons e es ih =>
    simp only [printed, List.flatMap_cons, List.flatMap_append] at ih ⊢
    rw [ih]
    cases e <;> simp [shown, textOn]

end Event

namespace Finding

theorem isError_iff {d : Finding} : d.isError = true ↔ d.severity = .error := by
  simp [isError]

theorem countP_severities (found : List Finding) :
    found.countP isError + found.countP isWarning + found.countP isInfo = found.length := by
  induction found with
  | nil => rfl
  | cons d ds ih =>
    obtain ⟨rule, severity, message, index, fix⟩ := d
    cases severity <;> simp [isError, isWarning, isInfo] at ih ⊢ <;> omega

theorem refusalMessage_filter (found : List Finding) :
    refusalMessage (found.filter isError) =
      "Validation failed with " ++ Text.ofNat (found.countP isError) ++ " error(s): " ++
        List.intercalate "; " ((found.filter isError).map line) := by
  rw [List.countP_eq_length_filter]
  rfl

end Finding

theorem Style.nameless_iff (s : Style) : (s.attrs.has "theme" && !s.isThemed) = true ↔
    ∃ v, s.attrs.get? "theme" = some v ∧ ∀ t ≠ [], v ≠ .text t := by
  rw [OrderedMap.has, Style.isThemed, Style.theme?, Style.text?]
  cases s.attrs.get? "theme" with
  | none => simp
  | some v =>
    cases v with
    | present => simp [AttrValue.text?]
    | text t => simp [AttrValue.text?, not_imp_not, forall_eq']

namespace Component

section

variable {c : Component} {extra : List Rule} {errors found : List Finding}

theorem verdict_eq : c.verdict extra =
    if (c.findings extra).filter Finding.isError = [] then .ok (c.findings extra)
    else .error ((c.findings extra).filter Finding.isError) := by
  rw [verdict]
  split
  · next e => rw [if_pos e]
  · next hne => rw [if_neg hne]

theorem filter_isError_eq_nil_iff :
    (c.findings extra).filter Finding.isError = [] ↔
      ¬ ∃ d ∈ c.findings extra, d.severity = .error := by
  simp only [List.filter_eq_nil_iff, Finding.isError_iff, not_exists, not_and]

theorem exists_verdict_error_iff :
    (∃ errors, c.verdict extra = .error errors) ↔ ∃ d ∈ c.findings extra, d.severity = .error := by
  rw [verdict_eq]
  split
  · next h => exact iff_of_false (by simp) (filter_isError_eq_nil_iff.1 h)
  · next h => exact iff_of_true ⟨_, rfl⟩ (not_not.1 (filter_isError_eq_nil_iff.not.1 h))

theorem exists_verdict_ok_iff :
    (∃ found, c.verdict extra = .ok found) ↔ ¬ ∃ d ∈ c.findings extra, d.severity = .error := by
  rw [verdict_eq]
  split
  · next h => exact iff_of_true ⟨_, rfl⟩ (filter_isError_eq_nil_iff.1 h)
  · next h => exact iff_of_false (by simp) (filter_isError_eq_nil_iff.not.1 h)

theorem eq_of_verdict_error (h : c.verdict extra = .error errors) :
    errors = (c.findings extra).filter Finding.isError := by
  rw [verdict_eq] at h
  split at h <;> cases h
  rfl

theorem eq_of_verdict_ok (h : c.verdict extra = .ok found) : found = c.findings extra := by
  rw [verdict_eq] at h
  split at h <;> cases h
  rfl

end

theorem mem_findings_iff {c : Component} {d : Finding} :
    d ∈ c.findings [] ↔ d ∈ Rule.themeHasValue c ∨ d ∈ Rule.replaceOnBaseBlock c ∨
      d ∈ Rule.replaceTargetExists c ∨ d ∈ Rule.duplicateIds c := by
  simp [findings, Rule.builtin]

theorem exists_error_iff (c : Component) :
    (∃ d ∈ c.findings [], d.severity = .error) ↔ Rule.themeHasValue c ≠ [] := by
  constructor
  · rintro ⟨d, hd, he⟩ hn
    have hwarning (h : d.severity = .warning) : False := by rw [he] at h; cases h
    rcases mem_findings_iff.1 hd with hd | hd | hd | hd
    · rw [hn] at hd
      cases hd
    · exact hwarning ((Rule.flags_replaceOnBaseBlock c).severities d hd)
    · exact hwarning ((Rule.flags_replaceTargetExists c).severities d hd)
    · exact hwarning ((Rule.flags_duplicateIds c).severities d hd)
  · intro hn
    obtain ⟨d, hd⟩ := List.exists_mem_of_ne_nil _ hn
    exact ⟨d, mem_findings_iff.2 (.inl hd), (Rule.flags_themeHasValue c).severities d hd⟩

theorem exists_error_iff_nameless (c : Component) :
    (∃ d ∈ c.findings [], d.severity = .error) ↔
      ∃ s ∈ c.styles, ∃ v, s.attrs.get? "theme" = some v ∧ ∀ t ≠ [], v ≠ .text t := by
  rw [exists_error_iff, (Rule.flags_themeHasValue c).ne_nil_iff]
  simp only [Style.nameless_iff]
  constructor
  · rintro ⟨i, s, hs, h⟩
    exact ⟨s, List.mem_of_getElem? hs, h⟩
  · rintro ⟨s, hs, h⟩
    obtain ⟨i, hi⟩ := List.getElem?_of_mem hs
    exact ⟨i, s, hi, h⟩

end Component

namespace Task

def okText (file : Text) : Text :=
  Text.withoutControls ("OK: " ++ FileTree.lastName file ++ " is valid (0 diagnostics)" ++ ['\n'])

def entryText (d : Finding) : Text := Text.withoutControls (d.line ++ ['\n'])

def summaryLine (errors warnings infos : Nat) : Text :=
  "Summary: " ++ Text.ofNat errors ++ " error(s), " ++ Text.ofNat warnings ++ " warning(s), " ++
    Text.ofNat infos ++ " info"

theorem head?_okText (file : Text) : (okText file).head? = some 'O' :=
  Text.head?_withoutControls rfl (by decide)

theorem exists_entryText_eq_cons (d : Finding) : ∃ l s, entryText d = l :: s ∧ l ≠ 'O' := by
  obtain ⟨rule, severity, message, index, fix⟩ := d
  have h : ∃ l, (Finding.line ⟨rule, severity, message, index, fix⟩ ++ ['\n']).head? = some l ∧
      l ≠ '\x1b' ∧ l ≠ 'O' := by
    cases severity with
    | error => exact ⟨'E', rfl, by decide, by decide⟩
    | warning => exact ⟨'W', rfl, by decide, by decide⟩
    | info => exact ⟨'I', rfl, by decide, by decide⟩
  obtain ⟨l, hl, he, ho⟩ := h
  obtain ⟨s, hs⟩ := List.head?_eq_some_iff.1 (Text.head?_withoutControls hl he)
  exact ⟨l, s, hs, ho⟩

theorem escape_not_mem_summary {e w i : Text} (he : '\x1b' ∉ e) (hw : '\x1b' ∉ w)
    (hi : '\x1b' ∉ i) :
    '\x1b' ∉ ("Summary: " ++ e ++ " error(s), " ++ w ++ " warning(s), " ++ i ++ " info" : Text) ++
      ['\n'] := by
  simp only [List.mem_append, he, hw, hi]
  decide

theorem plain_summaryLine (errors warnings infos : Nat) :
    (summaryLine errors warnings infos ++ ['\n']).Plain :=
  Text.plain_of_not_mem (escape_not_mem_summary (Text.escape_not_mem_ofNat errors)
    (Text.escape_not_mem_ofNat warnings) (Text.escape_not_mem_ofNat infos))

variable {tree : FileTree} {file : Text} {c : Component}

theorem stdout_answered (h : tree.component file = .ok c)
    (answer : Component → Nat × List Text) :
    (answered tree file answer).stdout =
      (answer c).2.flatMap fun line => Text.withoutControls (line ++ ['\n']) := by
  rw [answered, h, Outcome.stdout, ← Event.printed_map_echo]
  rfl

theorem stderr_answered (h : tree.component file = .ok c) (answer : Component → Nat × List Text) :
    (answered tree file answer).stderr = [] := by
  rw [answered, h]
  refine Event.printed_eq_nil fun e he => ?_
  rcases List.mem_cons.1 he with rfl | he
  · rfl
  · obtain ⟨line, _, rfl⟩ := List.mem_map.1 he
    rfl

theorem stdout_validate_of_nil (h : tree.component file = .ok c) (hf : c.findings [] = []) :
    ((validate file).run tree).stdout = okText file := by
  rw [run, stdout_answered h]
  simp only [hf, validationLines, if_true, List.flatMap_cons, List.flatMap_nil, List.append_nil]
  rfl

/-- The entries of the findings, a blank line and the summary. -/
theorem stdout_validate_of_ne_nil (h : tree.component file = .ok c) (hf : c.findings [] ≠ []) :
    ((validate file).run tree).stdout =
      (c.findings []).flatMap entryText ++ ['\n'] ++
        summaryLine ((c.findings []).countP Finding.isError)
          ((c.findings []).countP Finding.isWarning) ((c.findings []).countP Finding.isInfo) ++
        ['\n'] := by
  have hblank : Text.withoutControls ([] ++ ['\n']) = ['\n'] := by decide +kernel
  have hsummary : Text.withoutControls (validationSummary (c.findings []) ++ ['\n']) =
      validationSummary (c.findings []) ++ ['\n'] :=
    (Text.withoutControls_eq_self_iff _).2 (plain_summaryLine _ _ _)
  rw [run, stdout_answered h]
  simp only [validationLines, if_neg hf, List.flatMap_append, List.flatMap_map, List.flatMap_cons,
    List.flatMap_nil, List.append_nil, hblank, hsummary, List.append_assoc]
  rfl

theorem stdout_validate_eq_okText_iff (h : tree.component file = .ok c) :
    ((validate file).run tree).stdout = okText file ↔ c.findings [] = [] := by
  refine ⟨fun e => not_not.1 fun hf => ?_, stdout_validate_of_nil h⟩
  -- the first letter tells a finding from the other line
  obtain ⟨d, ds, hd⟩ := List.exists_cons_of_ne_nil hf
  obtain ⟨l, s, hl, ho⟩ := exists_entryText_eq_cons d
  have hok := head?_okText file
  rw [← e, stdout_validate_of_ne_nil h hf, hd, List.flatMap_cons, hl] at hok
  exact ho (Option.some.inj hok)

end Task

/-- What a validation of a file leaves behind if the file holds the component `c`. -/
structure Outcome.Reports (o : Outcome) (file : Text) (c : Component) : Prop where
  accepted : o.exitCode = 0 ↔ ∃ found, c.verdict [] = .ok found
  refused : o.exitCode = 1 ↔ ∃ errors, c.verdict [] = .error errors
  clean : o.stdout = Task.okText file ↔ c.findings [] = []
  listed : c.findings [] ≠ [] → o.stdout =
    (c.findings []).flatMap Task.entryText ++ ['\n'] ++
      Task.summaryLine ((c.findings []).countP Finding.isError)
        ((c.findings []).countP Finding.isWarning) ((c.findings []).countP Finding.isInfo) ++ ['\n']
  counted : (c.findings []).countP Finding.isError + (c.findings []).countP Finding.isWarning +
    (c.findings []).countP Finding.isInfo = (c.findings []).length
  failing : (c.findings []).countP Finding.isError ≠ 0 ↔ o.exitCode = 1
  crash : o.crash = none

theorem Outcome.Reports.congr {o o' : Outcome} {file : Text} {c : Component}
    (h : o.Reports file c) (hcode : o'.exitCode = o.exitCode) (hstdout : o'.stdout = o.stdout)
    (hcrash : o'.crash = o.crash) : o'.Reports file c where
  accepted := by rw [hcode, h.accepted]
  refused := by rw [hcode, h.refused]
  clean := by rw [hstdout, h.clean]
  listed hf := by rw [hstdout, h.listed hf]
  counted := h.counted
  failing := by rw [hcode, h.failing]
  crash := by rw [hcrash, h.crash]

namespace Task

theorem validationCode_eq (found : List Finding) :
    validationCode found = if ∃ d ∈ found, d.severity = .error then 1 else 0 := by
  simp only [validationCode, List.any_eq_true, Finding.isError_iff]

theorem reports_validate {tree : FileTree} {file : Text} {c : Component}
    (h : tree.component file = .ok c) : ((validate file).run tree).Reports file c := by
  have hcode : ((validate file).run tree).exitCode =
      if ∃ d ∈ c.findings [], d.severity = .error then 1 else 0 := by
    rw [run, answered, h]
    exact validationCode_eq _
  have hcrash : ((validate file).run tree).crash = none := by
    rw [run, answered, h]
  refine ⟨?_, ?_, stdout_validate_eq_okText_iff h, stdout_validate_of_ne_nil h,
    Finding.countP_severities _, ?_, hcrash⟩
  · rw [hcode, Component.exists_verdict_ok_iff]
    split <;> simp [*]
  · rw [hcode, Component.exists_verdict_error_iff]
    split <;> simp [*]
  · rw [hcode, ← Nat.pos_iff_ne_zero, List.countP_pos_iff]
    simp only [Finding.isError_iff]
    split <;> simp [*]

end Task

theorem stderr_execute_validate {tree : FileTree} {words : List Text} {file : Text} {c : Component}
    (h : Invocation.ofWords tree words = .task false (.validate file))
    (hc : tree.component file = .ok c) : (execute tree words).stderr = [] := by
  rw [execute, h]
  exact (Event.printed_shown_false .err _).trans (Task.stderr_answered hc _)

/-- A component is refused if it has an error, and then for all of its errors. Without extra rules
these are the themes without a name. A validation of its file ends by that verdict, and prints the
findings that it is reached on. -/
theorem verdicts_agree :
    (∀ (c : Component) (extra : List Rule),
      ((∃ errors, c.verdict extra = .error errors) ↔
        ∃ d ∈ c.findings extra, d.severity = .error) ∧
      (∀ errors, c.verdict extra = .error errors →
        errors = (c.findings extra).filter Finding.isError ∧
        Finding.refusalMessage errors =
          "Validation failed with " ++ Text.ofNat ((c.findings extra).countP Finding.isError) ++
            " error(s): " ++ List.intercalate "; " (errors.map Finding.line)) ∧
      ∀ found, c.verdict extra = .ok found → found = c.findings extra) ∧
    (∀ c : Component, (∃ errors, c.verdict [] = .error errors) ↔
      ∃ s ∈ c.styles, ∃ v, s.attrs.get? "theme" = some v ∧ ∀ t ≠ [], v ≠ .text t) ∧
    ∀ (tree : FileTree) (words : List Text) (verbose : Bool) (file : Text) (c : Component),
      Invocation.ofWords tree words = .task verbose (.validate file) →
      tree.component file = .ok c → (execute tree words).Reports file c ∧
        (verbose = false → (execute tree words).stderr = []) := by
  refine ⟨fun c extra => ⟨Component.exists_verdict_error_iff, fun errors he => ?_,
    fun found => Component.eq_of_verdict_ok⟩, fun c => ?_, fun tree words verbose file c h hc => ?_⟩
  · rw [Component.eq_of_verdict_error he]
    exact ⟨rfl, Finding.refusalMessage_filter _⟩
  · rw [Component.exists_verdict_error_iff, Component.exists_error_iff_nameless]
  · obtain ⟨hcode, hstdout, _, hcrash⟩ := execute_task h
    refine ⟨(Task.reports_validate hc).congr hcode hstdout hcrash, ?_⟩
    rintro rfl
    exact stderr_execute_validate h hc

/-- A block with an empty theme and a colour in its target, the file of another component with two
findings on one block, and a file with nothing to report that has a colour in its name. -/
theorem verdicts_agree_on_files :
    let sizes : Rule := fun c =>
      [⟨"size", .info, Text.ofNat c.styles.length, none, none⟩, ⟨"size", .error, ['2'], none, none⟩]
    let aimed : Style := ⟨[], .ofList [("theme", .text ['d']), ("replace", .text "\x1b[1mx")]⟩
    let nameless : Style := ⟨[], .ofList [("theme", .text [])]⟩
    let twice : Text := "<style id=a theme></style><style id=a replace></style>"
    let tree : FileTree := ⟨.ofList [(["w"], .directory),
      (["w", "a.vue"], .file (Text.Utf8.encode twice)),
      (["w", "\x1b[1mb.vue"], .file (Text.Utf8.encode "<style theme=d></style>"))], ["w"]⟩
    let failing := execute tree ["-v", "validate", "a.vue"]
    let clean := execute tree ["validate", "\x1b[1mb.vue"]
    (∃ errors, Component.verdict ⟨none, none, [aimed, nameless], []⟩ [sizes] = .error errors ∧
      errors.map Finding.index = [some 1, none]) ∧
    (failing.exitCode = 1 ∧ failing.stdout =
      "ERROR [style#0]: Style block has a theme attribute without a theme name.\n" ++
      "WARNING [style#1]: replace on a block without a theme never replaces anything.\n" ++
      "WARNING [style#1]: id 'a' is already used by style#0.\n\n" ++
      "Summary: 1 error(s), 2 warning(s), 0 info\n") ∧
    clean.exitCode = 0 ∧ clean.stdout = "OK: b.vue is valid (0 diagnostics)\n" ∧
      clean.stderr = [] := by
  intro sizes aimed nameless twice tree failing clean
  obtain ⟨hverdict, -, hfiles⟩ := verdicts_agree
  have hw : Invocation.ofWords tree ["-v", "validate", "a.vue"] =
      .task true (.validate "a.vue") := by decide +kernel
  have hs : tree.source "a.vue" = .ok twice := by decide +kernel
  have hp : Component.parse twice true = .ok ⟨none, none,
      [⟨[], .ofList [("id", .text ['a']), ("theme", .present)]⟩,
        ⟨[], .ofList [("id", .text ['a']), ("replace", .present)]⟩], []⟩ := by decide +kernel
  have hw' : Invocation.ofWords tree ["validate", "\x1b[1mb.vue"] =
      .task false (.validate "\x1b[1mb.vue") := by decide +kernel
  have hs' : tree.source "\x1b[1mb.vue" = .ok "<style theme=d></style>" := by decide +kernel
  have hp' : Component.parse "<style theme=d></style>" true =
      .ok ⟨none, none, [⟨[], .ofList [("theme", .text ['d'])]⟩], []⟩ := by decide +kernel
  refine ⟨?_, ?_, ?_⟩
  · obtain ⟨hrefused, hall, -⟩ := hverdict ⟨none, none, [aimed, nameless], []⟩ [sizes]
    obtain ⟨errors, he⟩ := hrefused.2 ⟨⟨"size", .error, ['2'], none, none⟩, by decide, rfl⟩
    refine ⟨errors, he, ?_⟩
    rw [(hall errors he).1]
    decide
  · obtain ⟨hr, -⟩ := hfiles tree _ true _ _ hw (Task.component_eq_ok_iff.2 ⟨_, hs, hp⟩)
    exact ⟨hr.failing.1 (by decide), (hr.listed (by decide)).trans (by decide +kernel)⟩
  · obtain ⟨hr, hquiet⟩ := hfiles tree _ false _ _ hw' (Task.component_eq_ok_iff.2 ⟨_, hs', hp'⟩)
    have hout := hr.clean.2 (by decide)
    exact ⟨hr.accepted.2 ⟨[], by decide⟩, hout.trans (by decide +kernel), hquiet rfl⟩

end SfcTheme
