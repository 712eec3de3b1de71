import Mathlib.Data.List.DropRight
import SfcTheme.Proofs.FixedPoint

set_option autoImplicit false

namespace SfcTheme

namespace Settings

theorem ofConfig_put_debug {config : OrderedMap Text Datum} {settings : Settings}
    (h : ofConfig config = .ok settings) (debug : Bool) :
    ofConfig (config.put "debug" (.bool debug)) = .ok { settings with debug := debug } := by
  have hn : ("theme" : Text) ≠ "debug" := by decide
  unfold ofConfig at h ⊢
  rw [OrderedMap.get?_put, OrderedMap.get?_put, if_neg hn, if_pos rfl]
  split at h
  · cases h
  · cases h
  · next theme _ ht _ => cases h; rw [ht]; rfl

end Settings

namespace Build

def report? (settings : Settings) (source path : Text) : Option Report :=
  match output settings source with
  | .ok out => some ⟨path.baseName, out⟩
  | .error _ => none

theorem run_of_error {settings : Settings} {source : Text} {e : MarkupError}
    (h : output settings source = .error e) (chain : ReportChain) (path : Text) :
    run settings chain source path = ⟨.error e, [], chain⟩ := by
  unfold output at h
  unfold run
  cases hp : Component.parse source true with
  | error e' => rw [hp] at h; cases h; rfl
  | ok c => rw [hp] at h; cases h

theorem output_debug (settings : Settings) (debug : Bool) (source : Text) :
    output { settings with debug := debug } source = output settings source := rfl

theorem run_chain (settings : Settings) (chain : ReportChain) (source path : Text) :
    (run settings chain source path).chain =
      { chain with records := chain.records.map fun old =>
        old ++ if settings.debug then (report? settings source path).toList else [] } := by
  cases ho : output settings source with
  | error e =>
    rw [run_of_error ho]
    simp [report?, ho]
  | ok out =>
    obtain ⟨c, hp, rfl⟩ := output_eq_ok_iff.1 ho
    cases hd : settings.debug <;> simp [run, hp, hd, report?, ho, ReportChain.report]

end Build

namespace Session

namespace Request

def clears (depth : Nat) : Request → Bool
  | .build _ _ => false
  | .clear d => d == depth

def report? (settings : Settings) : Request → Option Report
  | .build source path => Build.report? settings source path
  | .clear _ => none

def alone (config : OrderedMap Text Datum) (chain : ReportChain) :
    Request → Option (Except SettingsFault (Except MarkupError Text))
  | .build source path => some ((Build.load config chain source path).map Build.result)
  | .clear _ => none

end Request

def sinceClear (depth : Nat) (rs : List Request) : List Request :=
  rs.rtakeWhile fun r => !r.clears depth

def reports (settings : Settings) (rs : List Request) : List Report :=
  if settings.debug then rs.filterMap (Request.report? settings) else []

/-- What the recorder at `depth` holds after the requests if it held `old` before them. -/
def remembered (settings : Settings) (rs : List Request) (depth : Nat) (old : List Report) :
    List Report :=
  (if rs.any (Request.clears depth) then [] else old) ++ reports settings (sinceClear depth rs)

theorem reports_append (settings : Settings) (rs rs' : List Request) :
    reports settings (rs ++ rs') = reports settings rs ++ reports settings rs' := by
  cases h : settings.debug <;> simp [reports, h]

@[simp] theorem reports_nil (settings : Settings) : reports settings [] = [] := by simp [reports]

@[simp] theorem remembered_nil (settings : Settings) (depth : Nat) :
    remembered settings [] depth = id := by
  funext old
  simp [remembered, sinceClear]

theorem remembered_concat (settings : Settings) (rs : List Request) (r : Request) (depth : Nat)
    (old : List Report) :
    remembered settings (rs ++ [r]) depth old =
      if r.clears depth then [] else remembered settings rs depth old ++ reports settings [r] := by
  cases h : r.clears depth with
  | true => simp [remembered, sinceClear, h]
  | false => simp [remembered, sinceClear, h, reports_append]

theorem remembered_singleton (settings : Settings) (r : Request) (depth : Nat) (old : List Report) :
    remembered settings [r] depth old =
      if r.clears depth then [] else old ++ reports settings [r] := by
  simpa using remembered_concat settings [] r depth old

theorem settings_answer (s : Session) (r : Request) : (s.answer r).1.settings = s.settings := by
  cases r <;> rfl

theorem sink_answer (s : Session) (r : Request) : (s.answer r).1.chain.sink = s.chain.sink := by
  cases r with
  | build source path => rw [answer, Build.run_chain]
  | clear d => rfl

theorem records_answer (s : Session) (r : Request) (depth : Nat) :
    (s.answer r).1.chain.records[depth]? =
      s.chain.records[depth]?.map (remembered s.settings [r] depth) := by
  have hr : remembered s.settings [r] depth = fun old =>
      if r.clears depth then [] else old ++ reports s.settings [r] := by
    funext old
    exact remembered_singleton s.settings r depth old
  rw [hr]
  cases r with
  | build source path =>
    have hb : reports s.settings [.build source path] =
        if s.settings.debug then (Build.report? s.settings source path).toList else [] := by
      cases h : Build.report? s.settings source path <;> simp [reports, Request.report?, h]
    simp [answer, Build.run_chain, Request.clears, hb]
  | clear d =>
    have hb : reports s.settings [.clear d] = [] := by simp [reports, Request.report?]
    by_cases h : d = depth
    · subst h
      simp [answer, ReportChain.clear, Request.clears, List.getElem?_set', Function.const_def]
    · simp [answer, ReportChain.clear, Request.clears, h, hb]

theorem serve_concat (s : Session) (rs : List Request) (r : Request) :
    (s.serve (rs ++ [r])).1 = ((s.serve rs).1.answer r).1 := by
  induction rs generalizing s with
  | nil => rfl
  | cons r' rs ih => exact ih (s.answer r').1

theorem settings_serve (s : Session) (rs : List Request) :
    (s.serve rs).1.settings = s.settings := by
  induction rs generalizing s with
  | nil => rfl
  | cons r rs ih => exact (ih (s.answer r).1).trans (s.settings_answer r)

theorem sink_serve (s : Session) (rs : List Request) :
    (s.serve rs).1.chain.sink = s.chain.sink := by
  induction rs generalizing s with
  | nil => rfl
  | cons r rs ih => exact (ih (s.answer r).1).trans (s.sink_answer r)

/-- By induction from the last request, since the records reach back to the last that clears them. -/
theorem records_serve (s : Session) (rs : List Request) (depth : Nat) :
    (s.serve rs).1.chain.records[depth]? =
      s.chain.records[depth]?.map (remembered s.settings rs depth) := by
  induction rs using List.reverseRecOn with
  | nil => simp [serve]
  | append_singleton rs r ih =>
    rw [serve_concat, records_answer, ih, settings_serve, Option.map_map]
    congr 1
    funext old
    rw [Function.comp_apply, remembered_singleton, remembered_concat]

theorem results_serve {config : OrderedMap Text Datum} {s : Session} {debug : Bool}
    (h : Settings.ofConfig config = .ok { s.settings with debug := debug }) (chain : ReportChain)
    (rs : List Request) :
    (s.serve rs).2.map (Option.map fun b => .ok b.result) =
      rs.map (Request.alone config chain) := by
  induction rs generalizing s with
  | nil => rfl
  | cons r rs ih =>
    have hr : ((s.answer r).2.map fun b => .ok b.result) = Request.alone config chain r := by
      cases r with
      | build source path =>
        rw [Request.alone, Build.load_result h, Build.output_debug, ← Build.run_result]
        rfl
      | clear d => rfl
    have hs : (s.answer r).1.settings = s.settings := s.settings_answer r
    rw [serve, List.map_cons, List.map_cons, hr]
    exact congrArg _ (ih (by rw [hs, h]))

theorem answer_of_error {s : Session} {source : Text} {e : MarkupError}
    (h : Build.output s.settings source = .error e) (path : Text) :
    s.answer (.build source path) = (s, some ⟨.error e, [], s.chain⟩) := by
  rw [answer, Build.run_of_error h]

/-- Whatever a session was asked before, its build steps give what they give alone, with a report or
without one. A recorder holds the reports that the outputs since its last clearing made, and a build
step without an output leaves the whole chain as it is. -/
theorem serve_remembers {config : OrderedMap Text Datum} {chain : ReportChain} {s : Session}
    (h : ofConfig config chain = .ok s) (rs : List Request) :
    (∀ other, (s.serve rs).2.map (Option.map fun b => .ok b.result) =
      rs.map (Request.alone config other)) ∧
    (∀ debug other, (s.serve rs).2.map (Option.map fun b => .ok b.result) =
      rs.map (Request.alone (config.put "debug" (.bool debug)) other)) ∧
    (s.serve rs).1.chain.sink = chain.sink ∧
    (∀ depth, (s.serve rs).1.chain.records[depth]? =
      chain.records[depth]?.map (remembered s.settings rs depth)) ∧
    ∀ source path e, Build.output s.settings source = .error e →
      (s.serve rs).1.answer (.build source path) =
        ((s.serve rs).1, some ⟨.error e, [], (s.serve rs).1.chain⟩) := by
  obtain ⟨settings, hs, rfl⟩ : ∃ settings, Settings.ofConfig config = .ok settings ∧
      (⟨settings, chain⟩ : Session) = s := by
    unfold ofConfig at h
    cases hc : Settings.ofConfig config with
    | error f => rw [hc] at h; cases h
    | ok settings => rw [hc] at h; cases h; exact ⟨settings, rfl, rfl⟩
  refine ⟨fun other => results_serve hs other rs, fun debug other => ?_, sink_serve _ rs,
    records_serve _ rs, fun source path e he => answer_of_error ?_ path⟩
  · exact results_serve (Settings.ofConfig_put_debug hs debug) other rs
  · rwa [settings_serve]

/-- Two recorders in front of a logger, the inner one cleared in between, and a source that cannot
be read. -/
theorem serve_remembers_inner_clear :
    let config : OrderedMap Text Datum :=
      .ofList [("theme", .text ['d']), ("mode", .int 1), ("debug", .bool true)]
    let chain : ReportChain := ⟨[[], []], some (.logger "build")⟩
    let s : Session := ⟨⟨some ['d'], true⟩, chain⟩
    let a : Text := "<style theme=d>p</style>"
    let b : Text := "<style theme=l>\n</style>"
    let rs : List Request :=
      [.build a "x/a.vue", .clear 1, .build "<style>" "c.vue", .build b "b.vue", .clear 2]
    let first : Report := ⟨"a.vue", "\n\n<style>p</style>\n"⟩
    let second : Report := ⟨"b.vue", "\n\n<style>\n</style>\n"⟩
    ofConfig config chain = .ok s ∧
      (s.serve rs).2.map (Option.map fun b => .ok b.result) =
        rs.map (Request.alone (config.put "debug" (.bool false)) .default) ∧
      (s.serve rs).1.chain.records[0]? = some [first, second] ∧
      (s.serve rs).1.chain.records[1]? = some [second] ∧
      ((s.serve rs).1.answer (.build "<style>" [])).1 = (s.serve rs).1 := by
  intro config chain s a b rs first second
  have h : ofConfig config chain = .ok s := rfl
  obtain ⟨_, results, _, records, failed⟩ := serve_remembers h rs
  have he : Build.output s.settings "<style>" =
      .error ⟨"Unclosed <style> block", some 1, some 1⟩ := by
    decide +kernel
  refine ⟨h, results false .default, ?_, ?_, ?_⟩
  · rw [records 0]
    decide +kernel
  · rw [records 1]
    decide +kernel
  · rw [failed _ [] _ he]

end Session

end SfcTheme
