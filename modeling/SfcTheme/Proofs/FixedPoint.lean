import SfcTheme.Build
import SfcTheme.Proofs.Reserialization

/-!
A second build step changes nothing. The first one leaves no attribute that steers theming, and what
it writes is read as the component that it was written from.
-/

set_option autoImplicit false

namespace SfcTheme

namespace OrderedMap

variable {κ α : Type} [DecidableEq κ]

theorem lookup_filter_names (p : κ → Bool) (name : κ) (es : List (κ × α)) :
    (es.filter fun e => p e.1).lookup name = if p name then es.lookup name else none := by
  induction es with
  | nil => simp
  | cons e es ih =>
    obtain ⟨n, v⟩ := e
    by_cases hn : name = n
    · subst hn
      by_cases hp : p name = true
      · simp [hp]
      · simp [hp, ih]
    · have hn : (name == n) = false := beq_eq_false_iff_ne.2 hn
      by_cases hp : p n = true <;> simp [hp, List.lookup_cons, hn, ih]

theorem get?_without (m : OrderedMap κ α) (excluded : List κ) (name : κ) :
    (m.without excluded).get? name = if name ∈ excluded then none else m.get? name := by
  have h := lookup_filter_names (fun n => !excluded.contains n) name m.entries
  by_cases hn : name ∈ excluded <;> simpa [without, get?, hn] using h

@[simp] theorem without_without (m : OrderedMap κ α) (excluded : List κ) :
    (m.without excluded).without excluded = m.without excluded :=
  ext_entries (by simp [without, List.filter_filter])

end OrderedMap

namespace Style

theorem get?_emitted {s : Style} {f : Fate} {name : Text} (h : name ∈ steeringNames) :
    (s.emitted f).attrs.get? name = none := by
  rw [emitted, OrderedMap.get?_without, if_pos h]

theorem mem_of_mem_emitted {s : Style} {f : Fate} {e : Text × AttrValue}
    (h : e ∈ (s.emitted f).attrs.entries) : e ∈ s.attrs.entries :=
  (List.mem_filter.1 h).1

theorem theme?_emitted (s : Style) (f : Fate) : (s.emitted f).theme? = none := by
  rw [theme?, text?, get?_emitted (by decide)]
  rfl

theorem fate_emitted (s : Style) (f : Fate) {siblings : List Style} (theme : Option Text)
    (h : ∀ d ∈ siblings, d.theme? = none) : (s.emitted f).fate siblings theme = .base := by
  have hn : siblings.findSome? ((s.emitted f).replacementBy? theme) = none := by
    rw [List.findSome?_eq_none_iff]
    intro d hd
    simp [replacementBy?, h d hd]
  rw [fate, theme?_emitted, hn]
  rfl

@[simp] theorem emitted_emitted_base (s : Style) (f : Fate) :
    (s.emitted f).emitted .base = s.emitted f := by
  simp [emitted, Fate.suppressed]

end Style

namespace Component

theorem theme?_of_mem_themed {c : Component} {t : Option Text} {d : Style}
    (h : d ∈ (c.themed t).styles) : d.theme? = none := by
  obtain ⟨s, _, rfl⟩ := List.mem_map.1 h
  exact s.theme?_emitted _

theorem fate_of_mem_themed {c : Component} {t : Option Text} {d : Style}
    (h : d ∈ (c.themed t).styles) (u : Option Text) : d.fate (c.themed t).styles u = .base := by
  obtain ⟨s, _, rfl⟩ := List.mem_map.1 h
  exact s.fate_emitted _ u fun _ hd => theme?_of_mem_themed hd

@[simp] theorem themed_themed (c : Component) (t u : Option Text) :
    (c.themed t).themed u = c.themed t := by
  have hs : ∀ d ∈ (c.themed t).styles, d.emitted (d.fate (c.themed t).styles u) = d := by
    intro d hd
    rw [fate_of_mem_themed hd]
    obtain ⟨s, _, rfl⟩ := List.mem_map.1 hd
    exact s.emitted_emitted_base _
  rw [themed, List.map_congr_left hs, List.map_id']

theorem mem_blocks_themed {c : Component} {t : Option Text} {b : Block}
    (h : b ∈ (c.themed t).blocks) :
    b ∈ c.blocks ∨ ∃ (s : Style) (f : Fate), s.toBlock ∈ c.blocks ∧ b = (s.emitted f).toBlock := by
  simp only [blocks, themed, List.mem_append, List.mem_map] at h ⊢
  rcases h with h | h | h | ⟨_, ⟨s, hs, rfl⟩, rfl⟩
  · exact .inl (.inl h)
  · exact .inl (.inr (.inl h))
  · exact .inl (.inr (.inr (.inl h)))
  · exact .inr ⟨s, _, .inr (.inr (.inr ⟨s, hs, rfl⟩)), rfl⟩

theorem forall_blocks_themed {P : Block → Prop}
    (hP : ∀ (s : Style) (f : Fate), P s.toBlock → P (s.emitted f).toBlock) {c : Component}
    (h : ∀ b ∈ c.blocks, P b) (t : Option Text) : ∀ b ∈ (c.themed t).blocks, P b := by
  intro b hb
  rcases mem_blocks_themed hb with hb | ⟨s, f, hs, rfl⟩
  · exact h b hb
  · exact hP s f (h _ hs)

theorem not_within_blankedLines (kind s : Text) : ¬ CloseTag.Within kind s.blankedLines := by
  intro ⟨gap, _, h⟩
  have hm : '<' ∈ s.blankedLines := h.subset (by simp [CloseTag.source])
  exact absurd (List.eq_of_mem_replicate hm) (by decide)

theorem not_within_emitted {s : Style} (h : ¬ CloseTag.Within Style.kind s.content) (f : Fate) :
    ¬ CloseTag.Within Style.kind (s.emitted f).content := by
  unfold Style.emitted
  split
  · exact not_within_blankedLines _ _
  · exact h

theorem sound_emitted {s : Style} (h : s.toBlock.Sound) (f : Fate) :
    (s.emitted f).toBlock.Sound where
  name := h.name
  attrs e he := h.attrs e (Style.mem_of_mem_emitted (f := f) he)
  content := by
    have hk : Style.kind ≠ Lexeme.kind := by decide
    exact (if_neg hk).mpr (not_within_emitted ((if_neg hk).mp h.content) f)

theorem deindented_emitted {s : Style} (h : s.toBlock.deindented = s.toBlock) (f : Fate) :
    (s.emitted f).toBlock.deindented = (s.emitted f).toBlock := by
  have hk : Style.kind ≠ Lexeme.kind := by decide
  have hs : s.content.deindented = s.content := by
    rw [Block.deindented_of_not_template hk] at h
    exact congrArg Block.content h
  have hc : (s.emitted f).content.deindented = (s.emitted f).content := by
    unfold Style.emitted
    split
    · exact Text.deindented_blankedLines _
    · exact hs
  rw [Block.deindented_of_not_template hk]
  exact congrArg (fun content => Block.mk Style.kind content (s.emitted f).attrs) hc

theorem Normal.themed {c : Component} (h : c.Normal) (t : Option Text) : (c.themed t).Normal where
  inPlace := ⟨h.inPlace.template, h.inPlace.script, h.inPlace.customBlocks⟩
  sound := forall_blocks_themed (fun _ f hs => sound_emitted hs f) h.sound t
  deindented := forall_blocks_themed (P := fun b => b.deindented = b)
    (fun _ f hs => deindented_emitted hs f) h.deindented t

end Component

namespace Build

theorem announced_result (settings : Settings) (chain : ReportChain) (source path : Text) :
    (announced settings chain source path).result = output settings source :=
  run_result settings chain source path

theorem output_eq_ok_iff {settings : Settings} {source out : Text} :
    output settings source = .ok out ↔
      ∃ c, Component.parse source true = .ok c ∧ (c.themed settings.theme).source = out := by
  unfold output
  cases Component.parse source true <;> simp [Except.map]

theorem parse_output {settings : Settings} {source out : Text} {c : Component}
    (hp : Component.parse source true = .ok c) (h : output settings source = .ok out)
    (hq : ∀ b ∈ (c.themed settings.theme).blocks, b.attrs.Quotable)
    (hu : ∀ b ∈ c.template, b.Undisturbed (c.themed settings.theme).behindTemplate)
    (deindent : Bool) : (c.themed settings.theme).source = out ∧
      Component.parse out deindent = .ok (c.themed settings.theme) := by
  obtain ⟨c', hp', rfl⟩ := output_eq_ok_iff.1 h
  rw [hp] at hp'
  cases hp'
  have hn : (c.themed settings.theme).Normal := (Component.normal_of_parse hp).themed _
  exact ⟨rfl, hn.parse_source_deindent hq hu deindent⟩

/-- The emitted text is read as the component that the theme left, and is what any build step emits
for it. -/
theorem fixed_point {settings : Settings} {chain : ReportChain} {source path out : Text}
    {c : Component} (hp : Component.parse source true = .ok c)
    (h : (announced settings chain source path).result = .ok out)
    (hq : ∀ b ∈ (c.themed settings.theme).blocks, b.attrs.Quotable)
    (ht : ∀ b ∈ c.template, Lexeme.Complete b.content) :
    Component.parse out true = .ok (c.themed settings.theme) ∧
      ∀ settings' chain' path', (announced settings' chain' out path').result = .ok out := by
  rw [announced_result] at h
  have hu : ∀ b ∈ (c.themed settings.theme).template, b.Undisturbed _ :=
    Component.undisturbed_of_complete ht
  obtain ⟨hs, again⟩ := parse_output hp h hq hu true
  refine ⟨again, fun settings' chain' path' => ?_⟩
  rw [announced_result, output_eq_ok_iff]
  exact ⟨_, again, by rw [Component.themed_themed, hs]⟩

/-- Every spelling at once: values in other quotes and in none, a tag that closes itself, blanks in
close tags, margins, text between blocks, and style blocks that are kept, replaced and left out. -/
theorem fixed_point_spellings :
    let source : Text := "0<style id='a'>\n  p\n</style ><1><style theme=d replace=a>\n  q\n" ++
      "</style\n><template>\n  <template/><!--</template>-->\n</template >" ++
      "<style theme='l' media='x y'>\n\n r</style><docs src = x/>"
    let out : Text := "<docs src=\"x\"></docs>\n\n" ++
      "<template>\n  <template/><!--</template>-->\n</template>\n\n\n" ++
      "<style>\n\n</style>\n\n<style>\nq\n</style>\n\n<style media=\"x y\">\n\n</style>\n"
    ∃ c, Component.parse source true = .ok c ∧
      Component.parse out true = .ok (c.themed (some ['d'])) ∧
      ∀ settings chain path, (announced settings chain out path).result = .ok out := by
  intro source out
  let c : Component := ⟨some ⟨"template", "\n  <template/><!--</template>-->\n", .empty⟩, none,
    [⟨"\np\n", .ofList [("id", .text ['a'])]⟩,
      ⟨"\nq\n", .ofList [("theme", .text ['d']), ("replace", .text ['a'])]⟩,
      ⟨"\n\nr", .ofList [("theme", .text ['l']), ("media", .text "x y")]⟩],
    [⟨"docs", [], .ofList [("src", .text ['x'])]⟩]⟩
  have hp : Component.parse source true = .ok c := by decide +kernel
  have h : (announced ⟨some ['d'], false⟩ ⟨[], none⟩ source []).result = .ok out := by
    rw [announced_result, output_eq_ok_iff]
    exact ⟨c, hp, by decide +kernel⟩
  exact ⟨c, hp, fixed_point hp h (by decide +kernel) (by decide +kernel)⟩

/-- The emitted text has its style blocks without the attributes that steer theming, if every value
that is written out can stand between double quotes and the template is not disturbed. -/
theorem steering_dropped {settings : Settings} {chain : ReportChain} {source path out : Text}
    {c : Component} (hp : Component.parse source true = .ok c)
    (h : (announced settings chain source path).result = .ok out)
    (hq : ∀ b ∈ (c.themed settings.theme).blocks, b.attrs.Quotable)
    (hu : ∀ b ∈ c.template, b.Undisturbed (c.themed settings.theme).behindTemplate)
    (deindent : Bool) :
    ∃ d, Component.parse out deindent = .ok d ∧ d.styles.length = c.styles.length ∧
      ∀ s ∈ d.styles, ∀ name ∈ Style.steeringNames, s.attrs.get? name = none := by
  rw [announced_result] at h
  refine ⟨_, (parse_output hp h hq hu deindent).2, by simp [Component.themed], ?_⟩
  intro s hs name hn
  obtain ⟨t, _, rfl⟩ := List.mem_map.1 hs
  exact Style.get?_emitted hn

/-- A value that steers theming may have a double quote in it, as it is not written out. -/
theorem steering_dropped_quoted_id :
    let source : Text := "<template><!-- --></template><style id='a\"b' media='x y'>p</style>" ++
      "<style theme=d replace='a\"b'>-->q</style>"
    ∃ out d, (announced ⟨some ['d'], false⟩ ⟨[], none⟩ source []).result = .ok out ∧
      Component.parse out false = .ok d ∧ d.styles.length = 2 ∧
      ∀ s ∈ d.styles, ∀ name ∈ Style.steeringNames, s.attrs.get? name = none := by
  intro source
  let c : Component := ⟨some ⟨"template", "<!-- -->", .empty⟩, none,
    [⟨['p'], .ofList [("id", .text "a\"b"), ("media", .text "x y")]⟩,
      ⟨"-->q", .ofList [("theme", .text ['d']), ("replace", .text "a\"b")]⟩], []⟩
  have hp : Component.parse source true = .ok c := by decide +kernel
  have h : (announced ⟨some ['d'], false⟩ ⟨[], none⟩ source []).result =
      .ok (c.themed (some ['d'])).source := by
    rw [announced_result, output_eq_ok_iff]
    exact ⟨c, hp, rfl⟩
  have hu : ∀ b ∈ c.template, b.Undisturbed (c.themed (some ['d'])).behindTemplate :=
    Component.undisturbed_of_complete (c := c.themed (some ['d'])) (by decide +kernel)
  obtain ⟨d, hd⟩ := steering_dropped hp h (by decide +kernel) hu false
  exact ⟨_, d, h, hd⟩

/-- Neither condition can be left out. A value with a double quote ends early in the emitted tag, and
what follows is read as an attribute. A style block in the text of the script becomes one of the
component once the comment that the template opens ends in front of it. -/
theorem steering_restored :
    let quoted : Text := "<style media='\" theme=\"dark'>a</style>"
    let hidden : Text := "<script>--></template><style theme=\"dark\"></style></script>" ++
      "<template><!--</template>"
    ∀ source ∈ [quoted, hidden], ∃ out d s,
      (announced ⟨none, false⟩ ⟨[], none⟩ source []).result = .ok out ∧
      Component.parse out true = .ok d ∧ s ∈ d.styles ∧
      s.attrs.get? "theme" = some (.text "dark") := by
  intro quoted hidden source hm
  simp only [announced_result, output_eq_ok_iff]
  rcases List.mem_pair.1 hm with rfl | rfl
  · let c : Component := ⟨none, none, [⟨['a'], .ofList [("media", .text "\" theme=\"dark")]⟩], []⟩
    let s : Style := ⟨['a'], .ofList [("media", .present), ("theme", .text "dark")]⟩
    exact ⟨(c.themed none).source, ⟨none, none, [s], []⟩, s, ⟨c, by decide +kernel, rfl⟩,
      by decide +kernel, List.mem_singleton_self s, by decide +kernel⟩
  · let c : Component := ⟨some ⟨"template", "<!--", .empty⟩,
      some ⟨"script", "--></template><style theme=\"dark\"></style>", .empty⟩, [], []⟩
    let t : Block := ⟨"template", "<!--</template>\n\n<script>-->", .empty⟩
    let s : Style := ⟨[], .ofList [("theme", .text "dark")]⟩
    exact ⟨(c.themed none).source, ⟨some t, none, [s], []⟩, s, ⟨c, by decide +kernel, rfl⟩,
      by decide +kernel, List.mem_singleton_self s, by decide +kernel⟩

end Build

end SfcTheme
