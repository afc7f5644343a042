import MakeLint.Proofs.FileTree
import MakeLint.Watch
import Mathlib.Data.List.Chain
/-!
# What a watch ends with

A watch lints at the start, and then at each change that comes no sooner than the debounce interval
after the lint before it. It ends with the severity of the last of these lints that could read the
file. A change that comes sooner is passed over and is not made up for, so that when it is the last one
the watch ends with the severity from before it.
-/

namespace MakeLint.Watch

variable {c : Config} {p : Paint} {path : Path}

/-- The severity of the file, if it can be read. -/
def verdict? (c : Config) (path : Path) (v : FileView) : Option (Option Severity) :=
  (Makefile.lintFile v c path).toOption.map FileResult.severity

theorem verdict?_of_lintFile {v : FileView} {r : FileResult}
    (h : Makefile.lintFile v c path = .ok r) : verdict? c path v = some r.severity := by
  rw [verdict?, h]
  rfl

theorem severity_relint (v : FileView) (previous : Option Severity) :
    (relint v c p path previous).2 = (verdict? c path v).getD previous := by
  unfold relint verdict?
  cases Makefile.lintFile v c path <;> rfl

/-! ### One event -/

/-- The watch lints at an event when its last lint was at this time. -/
def acts (c : Config) (lastLint : Nat) (ev : Event) : Bool :=
  ev.change.counts && c.debounceMs ≤ ev.time - lastLint

theorem step_of_acts {s : State} {ev : Event} (h : acts c s.lastLint ev = true) :
    (step c p path s ev).1 = ⟨ev.time, (verdict? c path ev.files).getD s.severity⟩ := by
  rw [acts] at h
  rw [step, if_pos h, ← severity_relint (p := p)]

theorem step_of_not_acts {s : State} {ev : Event} (h : ¬ acts c s.lastLint ev = true) :
    (step c p path s ev).1 = s := by
  rw [acts] at h
  rw [step, if_neg h]

/-! ### A row of events -/

/-- The events at which the watch lints. -/
def acted (c : Config) : Nat → List Event → List Event
  | _, [] => []
  | lastLint, ev :: rest =>
    if acts c lastLint ev then ev :: acted c ev.time rest else acted c lastLint rest

theorem run_cons (s : State) (ev : Event) (rest : List Event) :
    (run c p path s (ev :: rest)).1 = (run c p path (step c p path s ev).1 rest).1 :=
  rfl

theorem run_append (s : State) (first second : List Event) :
    (run c p path s (first ++ second)).1 = (run c p path (run c p path s first).1 second).1 := by
  induction first generalizing s with
  | nil => rfl
  | cons ev first ih => rw [List.cons_append, run_cons, run_cons, ih]

/-- Of the events that are left the watch remembers when the last one was. -/
theorem lastLint_run (s : State) (events : List Event) :
    (run c p path s events).1.lastLint =
      ((acted c s.lastLint events).map Event.time).getLastD s.lastLint := by
  induction events generalizing s with
  | nil => rfl
  | cons ev rest ih =>
    rw [run_cons, acted]
    split
    case isTrue h => rw [step_of_acts h, ih, List.map_cons, List.getLastD_cons]
    case isFalse h => rw [step_of_not_acts h, ih]

/-- A lint that cannot read the file leaves the severity of the last one that could. -/
theorem severity_run (s : State) (events : List Event) :
    (run c p path s events).1.severity =
      (((acted c s.lastLint events).map Event.files).filterMap (verdict? c path)).getLastD
        s.severity := by
  induction events generalizing s with
  | nil => rfl
  | cons ev rest ih =>
    rw [run_cons, acted]
    split
    case isTrue h =>
      rw [step_of_acts h, ih, List.map_cons, List.filterMap_cons]
      cases verdict? c path ev.files with
      | none => rfl
      | some severity => rw [List.getLastD_cons]; rfl
    case isFalse h => rw [step_of_not_acts h, ih]

theorem run_of_not_counts (s : State) {events : List Event}
    (h : ∀ ev ∈ events, ev.change.counts = false) : (run c p path s events).1 = s := by
  induction events with
  | nil => rfl
  | cons ev rest ih =>
    have hpassed : ¬ acts c s.lastLint ev = true := by simp [acts, h ev List.mem_cons_self]
    rw [run_cons, step_of_not_acts hpassed, ih fun later hl => h later (List.mem_cons_of_mem ev hl)]

theorem mem_acted {lastLint : Nat} {events : List Event} {ev : Event}
    (h : ev ∈ acted c lastLint events) : ev ∈ events ∧ ev.change.counts = true := by
  induction events generalizing lastLint with
  | nil => cases h
  | cons first rest ih =>
    rw [acted] at h
    split at h
    case isTrue hacts =>
      rcases List.mem_cons.mp h with rfl | h
      · exact ⟨List.mem_cons_self, (Bool.and_eq_true_iff.mp hacts).1⟩
      · exact ⟨List.mem_cons_of_mem first (ih h).1, (ih h).2⟩
    case isFalse => exact ⟨List.mem_cons_of_mem first (ih h).1, (ih h).2⟩

/-- The lints keep the debounce interval between them. -/
theorem acted_spaced (c : Config) (lastLint : Nat) (events : List Event) :
    List.IsChain (fun earlier later => c.debounceMs ≤ later - earlier)
      (lastLint :: (acted c lastLint events).map Event.time) := by
  induction events generalizing lastLint with
  | nil => exact .singleton lastLint
  | cons ev rest ih =>
    rw [acted]
    split
    case isTrue h =>
      have hspace : c.debounceMs ≤ ev.time - lastLint := by simpa using (Bool.and_eq_true_iff.mp h).2
      exact .cons_cons hspace (ih ev.time)
    case isFalse => exact ih lastLint

/-! ### From the start on -/

theorem start_eq_ok {v : FileView} {s : State} {said : List Message}
    (h : start v c p path = .ok (s, said)) : s = ⟨0, (verdict? c path v).getD none⟩ := by
  unfold start at h
  split at h
  · cases h
  · split at h
    · cases h
    · obtain ⟨hs, -⟩ := Prod.mk.inj (Except.ok.inj h)
      exact hs.symm.trans (congrArg (State.mk 0) (severity_relint v none))

/-- An event is the last change in a row, and the file stays as the event left it. -/
structure LastSave (path : Path) (ev : Event) (after : List Event) (final : FileView) : Prop where
  counts : ev.change.counts = true
  no_later : ∀ later ∈ after, later.change.counts = false
  unchanged : Makefile.readFile final path = Makefile.readFile ev.files path

theorem LastSave.verdict?_eq {ev : Event} {after : List Event} {final : FileView}
    (h : LastSave path ev after final) : verdict? c path ev.files = verdict? c path final := by
  rw [verdict?, verdict?, Makefile.lintFile, Makefile.lintFile, h.unchanged]

/-- The last save counts if it comes late enough after the lint before it; otherwise it is lost. -/
theorem severity_lastSave {ev : Event} {after : List Event} {final : FileView} {r : FileResult}
    (s : State) (before : List Event) (hsave : LastSave path ev after final)
    (hfinal : Makefile.lintFile final c path = .ok r) :
    (run c p path s (before ++ ev :: after)).1.severity =
      if c.debounceMs ≤ ev.time - (run c p path s before).1.lastLint then r.severity
      else (run c p path s before).1.severity := by
  rw [run_append, run_cons, run_of_not_counts _ hsave.no_later]
  split
  case isTrue h =>
    have hacts : acts c (run c p path s before).1.lastLint ev = true := by simp [acts, hsave.counts, h]
    rw [step_of_acts hacts, hsave.verdict?_eq, verdict?_of_lintFile hfinal]
    rfl
  case isFalse h =>
    have hpassed : ¬ acts c (run c p path s before).1.lastLint ev = true := by simp [acts, h]
    rw [step_of_not_acts hpassed]

/-- The time of the last lint is that of the start or of a change. -/
theorem lastLint_mem (c : Config) (p : Paint) (path : Path) (s : State) (events : List Event) :
    (run c p path s events).1.lastLint = s.lastLint ∨
      ∃ ev ∈ events, ev.change.counts = true ∧ (run c p path s events).1.lastLint = ev.time := by
  rw [lastLint_run]
  have hlast : ((acted c s.lastLint events).map Event.time).getLastD s.lastLint ∈
      s.lastLint :: (acted c s.lastLint events).map Event.time := List.getLastD_mem_cons
  rcases List.mem_cons.mp hlast with h | h
  · exact .inl h
  · obtain ⟨ev, hev, htime⟩ := List.mem_map.mp h
    exact .inr ⟨ev, (mem_acted hev).1, (mem_acted hev).2, htime.symm⟩

/-- A watch ends with the severity of its last lint that could read the file. Its lints are the one at
the start and those at changes that come no sooner than the debounce interval after the lint before, so
the last save counts exactly if it does. It does if the interval has passed since every earlier
change. -/
theorem severity_of_start (c : Config) (p : Paint) (path : Path) (v : FileView) (s : State)
    (said : List Message) (hstart : start v c p path = .ok (s, said)) :
    (∀ events, (run c p path s events).1.severity =
      ((v :: (acted c 0 events).map Event.files).filterMap (verdict? c path)).getLastD none) ∧
    ∀ before ev after final r, LastSave path ev after final →
      Makefile.lintFile final c path = .ok r →
      (run c p path s (before ++ ev :: after)).1.severity =
        (if c.debounceMs ≤ ev.time - ((acted c 0 before).map Event.time).getLastD 0 then r.severity
        else (run c p path s before).1.severity) ∧
      (c.debounceMs ≤ ev.time →
        (∀ earlier ∈ before, earlier.change.counts = true → c.debounceMs ≤ ev.time - earlier.time) →
        (run c p path s (before ++ ev :: after)).1.severity = r.severity) := by
  obtain rfl := start_eq_ok hstart
  refine ⟨fun events => ?_, fun before ev after final r hsave hfinal => ⟨?_, ?_⟩⟩
  · rw [severity_run, List.filterMap_cons]
    cases verdict? c path v with
    | none => rfl
    | some severity => rw [List.getLastD_cons]; rfl
  · rw [severity_lastSave _ before hsave hfinal, lastLint_run]
  · intro hlate hspaced
    rw [severity_lastSave _ before hsave hfinal, if_pos]
    rcases lastLint_mem c p path ⟨0, (verdict? c path v).getD none⟩ before with
      h | ⟨earlier, hmem, hcounts, h⟩
    · rw [h]
      exact hlate
    · rw [h]
      exact hspaced earlier hmem hcounts

/-! ### A makefile in the current directory -/

/-- A directory with nothing but a makefile. -/
def beside (content : String) : FileView :=
  ⟨.directory [("Makefile", .file (Bytes.ofString content))], []⟩

/-- The configuration of a watch that is asked for nothing else. -/
def plainConfig : Config :=
  .ofArguments { files := ["Makefile"], watch := true }

theorem find_beside (content : String) :
    (beside content).find ⟨"Makefile"⟩ = .ok (["Makefile"], .file (Bytes.ofString content)) :=
  FileView.find_of_isName (by decide +kernel) rfl rfl (by simp)

theorem lintFile_beside (content : String) :
    ∃ r, Makefile.lintFile (beside content) plainConfig ⟨"Makefile"⟩ = .ok r ∧
      r.severity = (Makefile.lintBytes "Makefile" plainConfig.style (Bytes.ofString content)
        { registry := plainConfig.warnings }).2.severity := by
  have hread : Makefile.readFile (beside content) ⟨"Makefile"⟩ = .ok (Bytes.ofString content) :=
    Makefile.readFile_of_isName (by decide +kernel) rfl rfl
  rw [Makefile.lintFile, hread]
  exact ⟨_, rfl, rfl⟩

theorem start_beside (content : String) :
    ∃ s said, start (beside content) plainConfig p ⟨"Makefile"⟩ = .ok (s, said) := by
  have hexists : (beside content).exists? ⟨"Makefile"⟩ = true := by
    rw [FileView.exists?, find_beside]
  have hfile : (beside content).isFile ⟨"Makefile"⟩ = true := by
    rw [FileView.isFile, find_beside]
  rw [start, hexists, hfile]
  exact ⟨_, _, rfl⟩

/-- The makefile is saved without the newline at its end. -/
def cutSave (time : Nat) : Event :=
  ⟨time, .modified, beside "a:\nb"⟩

theorem lastSave_cutSave (time : Nat) :
    LastSave ⟨"Makefile"⟩ (cutSave time) [] (beside "a:\nb") :=
  ⟨rfl, by simp, rfl⟩

/-- A clean makefile that is saved with a defect, a tenth of a second after the start and never again,
is still clean to the watch when it ends. -/
theorem severity_of_start_too_soon :
    ∃ s said r, start (beside "a:\n") plainConfig ⟨false⟩ ⟨"Makefile"⟩ = .ok (s, said) ∧
      LastSave ⟨"Makefile"⟩ (cutSave 100) [] (beside "a:\nb") ∧
      Makefile.lintFile (beside "a:\nb") plainConfig ⟨"Makefile"⟩ = .ok r ∧
      r.severity = some .undefined ∧
      (run plainConfig ⟨false⟩ ⟨"Makefile"⟩ s [cutSave 100]).1.severity ≠ r.severity := by
  obtain ⟨s, said, hstart⟩ := start_beside (p := ⟨false⟩) "a:\n"
  obtain ⟨r, hlint, hseverity⟩ := lintFile_beside "a:\nb"
  obtain ⟨first, hfirst, hclean⟩ := lintFile_beside "a:\n"
  have hnone : first.severity = none := hclean.trans (by decide +kernel)
  have hundefined : r.severity = some .undefined := hseverity.trans (by decide +kernel)
  have hstate : s = ⟨0, none⟩ := by
    rw [start_eq_ok hstart, verdict?_of_lintFile hfirst, hnone]
    rfl
  refine ⟨s, said, r, hstart, lastSave_cutSave 100, hlint, hundefined, ?_⟩
  have hlost := severity_lastSave (p := ⟨false⟩) s [] (lastSave_cutSave 100) hlint
  rw [List.nil_append, hstate] at hlost
  rw [hstate, hlost, hundefined]
  decide

theorem severity_of_start_late :
    ∃ s said, start (beside "a:\n") plainConfig ⟨false⟩ ⟨"Makefile"⟩ = .ok (s, said) ∧
      (run plainConfig ⟨false⟩ ⟨"Makefile"⟩ s [cutSave 100, cutSave 600]).1.severity =
        some .undefined := by
  obtain ⟨s, said, hstart⟩ := start_beside (p := ⟨false⟩) "a:\n"
  obtain ⟨r, hlint, hseverity⟩ := lintFile_beside "a:\nb"
  have h := severity_of_start plainConfig ⟨false⟩ ⟨"Makefile"⟩ (beside "a:\n") s said hstart
  have hlate := (h.2 [cutSave 100] (cutSave 600) [] (beside "a:\nb") r (lastSave_cutSave 600) hlint).2
    (by decide) (by decide)
  exact ⟨s, said, hstart, hlate.trans (hseverity.trans (by decide +kernel))⟩

end MakeLint.Watch
