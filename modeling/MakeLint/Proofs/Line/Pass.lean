import MakeLint.Line.Pass
import MakeLint.Proofs.Line.Framing
import MakeLint.Proofs.Line.Continuation
import MakeLint.Proofs.Text.Alike
import MakeLint.Proofs.Text.Encode
/-!
# Lines under passes

No pass moves a line, and none puts an ASCII byte into one: a repair brings in only U+FFFD, and a join
takes a backslash away. So whatever the loader makes sure of holds after any passes in any order, and
a line that has been repaired once stays valid, since taking away an ASCII byte breaks no character.
-/

namespace MakeLint

theorem Utf8.isValid_dropBackslash {bytes : Bytes} (h : isValid bytes = true) :
    isValid bytes.dropBackslash = true := by
  by_cases hends : Bytes.EndsInBackslash bytes
  · rw [hends.eq_append, isValid, pieces_append_ascii _ (by decide), List.all_append,
      Bool.and_eq_true] at h
    exact h.1
  · rwa [Bytes.dropBackslash_of_not_ends hends]

theorem Bytes.mem_of_mem_dropBackslash {bytes : Bytes} {b : UInt8} (h : b ∈ bytes.dropBackslash) :
    b ∈ bytes := by
  unfold dropBackslash at h
  split at h
  · exact List.dropLast_subset bytes h
  · exact h

namespace Line

open Bytes

/-- The second line is what passes may have made of the first. -/
structure Later (l m : Line) : Prop where
  path : m.path = l.path
  number : m.number = l.number
  eof : m.eof = l.eof
  nestLevel : m.nestLevel = l.nestLevel
  ascii : ∀ b, b < 0x80 → b ∈ m.data → b ∈ l.data
  valid : Utf8.isValid l.data = true → Utf8.isValid m.data = true

namespace Later

variable {l m n : Line}

theorem refl (l : Line) : Later l l :=
  ⟨rfl, rfl, rfl, rfl, fun _ _ h => h, fun h => h⟩

theorem trans (h : Later l m) (h' : Later m n) : Later l n where
  path := h'.path.trans h.path
  number := h'.number.trans h.number
  eof := h'.eof.trans h.eof
  nestLevel := h'.nestLevel.trans h.nestLevel
  ascii b hb hn := h.ascii b hb (h'.ascii b hb hn)
  valid hl := h'.valid (h.valid hl)

theorem framed (h : Later l m) (hl : l.Framed) : m.Framed :=
  ⟨fun hnul => hl.nul (h.ascii _ (by decide) hnul),
    fun hnewline => hl.newline (h.ascii _ (by decide) hnewline)⟩

theorem of_repair (l : Line) : Later l l.repair :=
  ⟨rfl, rfl, rfl, rfl, fun _ hb h => (Utf8.mem_repair_iff hb l.data).mp h,
    fun _ => Utf8.isValid_repair l.data⟩

theorem of_join (l : Line) : Later l l.join := by
  have hplace : l.join.path = l.path ∧ l.join.number = l.number ∧
      l.join.nestLevel = l.nestLevel := by
    unfold join
    split <;> exact ⟨rfl, rfl, rfl⟩
  obtain ⟨hpath, hnumber, hnestLevel⟩ := hplace
  refine ⟨hpath, hnumber, eof_join l, hnestLevel, ?_, ?_⟩
  · intro b _ hb
    rw [data_join] at hb
    exact mem_of_mem_dropBackslash hb
  · intro hvalid
    rw [data_join]
    exact Utf8.isValid_dropBackslash hvalid

theorem of_settle (l : Line) : Later l l.settle := by
  unfold settle
  split
  · exact ⟨rfl, rfl, rfl, rfl, fun _ _ h => h, fun h => h⟩
  · exact refl l

end Later

/-! ### Lines in their places -/

/-- The first of the lines from an index on is the line at the index. -/
theorem getElem?_of_drop {ls rest : List Line} {l : Line} {i : Nat} (h : ls.drop i = l :: rest) :
    ls[i]? = some l ∧ ls.drop (i + 1) = rest := by
  constructor
  · rw [← List.head?_drop, h, List.head?_cons]
  · rw [← List.tail_drop, h, List.tail_cons]

/-- The second lines are what passes may have made of the first, each in its place. -/
structure LaterAll (ls ms : List Line) : Prop where
  length : ms.length = ls.length
  later : ∀ (i : Nat) (m : Line), ms[i]? = some m → ∃ l, ls[i]? = some l ∧ Later l m

namespace LaterAll

variable {ls ms ns : List Line}

theorem refl (ls : List Line) : LaterAll ls ls :=
  ⟨rfl, fun _ m hm => ⟨m, hm, Later.refl m⟩⟩

theorem trans (h : LaterAll ls ms) (h' : LaterAll ms ns) : LaterAll ls ns := by
  refine ⟨h'.length.trans h.length, ?_⟩
  intro i n hn
  obtain ⟨m, hm, hmn⟩ := h'.later i n hn
  obtain ⟨l, hl, hlm⟩ := h.later i m hm
  exact ⟨l, hl, hlm.trans hmn⟩

theorem of_map {change : Line → Line} (h : ∀ l, Later l (change l)) (ls : List Line) :
    LaterAll ls (ls.map change) := by
  refine ⟨List.length_map change, ?_⟩
  intro i m hm
  rw [List.getElem?_map] at hm
  obtain ⟨l, hl, rfl⟩ := Option.map_eq_some_iff.mp hm
  exact ⟨l, hl, h l⟩

theorem of_modify {change : Line → Line} (h : ∀ l, Later l (change l)) (i : Nat)
    (ls : List Line) : LaterAll ls (ls.modify i change) := by
  refine ⟨List.length_modify .., ?_⟩
  intro j m hm
  rw [List.getElem?_modify] at hm
  obtain ⟨l, hl, rfl⟩ := Option.map_eq_some_iff.mp hm
  refine ⟨l, hl, ?_⟩
  split
  · exact h l
  · exact Later.refl l

theorem of_joinAll (ls : List Line) : LaterAll ls (joinAll ls) :=
  of_map (fun l => (Later.of_join l).trans (Later.of_settle l.join)) ls

end LaterAll

/-! ### The last line -/

/-- The last line is marked as such. -/
def EndsMarked (ls : List Line) : Prop :=
  ∀ l ∈ ls.getLast?, l.eof = true

theorem LaterAll.endsMarked {ls ms : List Line} (h : LaterAll ls ms) (hls : EndsMarked ls) :
    EndsMarked ms := by
  intro m hm
  rw [List.getLast?_eq_getElem?] at hm
  obtain ⟨l, hl, hlm⟩ := h.later _ m hm
  rw [h.length, ← List.getLast?_eq_getElem?] at hl
  rw [hlm.eof]
  exact hls l hl

/-- Joined lines end with one that does not continue, whatever its text. -/
theorem EndsMarked.isContinued_joinAll {ls : List Line} (h : EndsMarked ls) :
    ∀ l ∈ (joinAll ls).getLast?, l.isContinued = false := by
  intro m hm
  rw [joinAll, List.getLast?_map] at hm
  obtain ⟨l, hl, rfl⟩ := Option.map_eq_some_iff.mp hm
  rw [isContinued_settle, eof_join, h l hl, Bool.not_true, Bool.and_false]

theorem endsMarked_ofBytes (path : String) (nestLevel : Nat) (bytes : Bytes) :
    EndsMarked (ofBytes path nestLevel bytes) := by
  intro l hl
  have hne : 0 < (ofBytes path nestLevel bytes).length := by
    apply List.length_pos_iff.mpr
    intro hnil
    rw [hnil] at hl
    cases hl
  rw [List.getLast?_eq_getElem?, getElem?_ofBytes] at hl
  obtain ⟨data, -, rfl⟩ := Option.map_eq_some_iff.mp hl
  apply decide_eq_true
  omega

/-- A line is where it was loaded, and as free of NUL bytes and newlines as it was then. -/
theorem LaterAll.place {path : String} {nestLevel i : Nat} {bytes : Bytes} {ms : List Line} {m : Line}
    (h : LaterAll (ofBytes path nestLevel bytes) ms) (hm : ms[i]? = some m) :
    m.number = i + 1 ∧ m.path = path ∧ m.nestLevel = nestLevel ∧
      (m.eof = true ↔ i + 1 = ms.length) ∧ m.Framed := by
  obtain ⟨l, hl, hlm⟩ := h.later i m hm
  have hframed := hlm.framed (framed_of_mem_ofBytes (List.mem_of_getElem? hl))
  rw [getElem?_ofBytes] at hl
  obtain ⟨data, -, rfl⟩ := Option.map_eq_some_iff.mp hl
  refine ⟨hlm.number, hlm.path, hlm.nestLevel, ?_, hframed⟩
  rw [hlm.eof, decide_eq_true_iff, h.length]

end Line

open Line

/-! ### Passes -/

namespace Pass

/-- One pass. -/
theorem laterAll_lines (p : Pass) (ls : List Line) : LaterAll ls (p.lines ls) := by
  cases p with
  | repair i => exact LaterAll.of_modify Later.of_repair i ls
  | width i => exact LaterAll.refl ls
  | join i => exact LaterAll.of_modify Later.of_join i ls
  | continuations => exact LaterAll.of_joinAll ls
  | classify i => exact LaterAll.refl ls
  | lint => exact (LaterAll.of_map Later.of_repair ls).trans (LaterAll.of_joinAll _)

/-- The pass repairs the encoding of this line. -/
def Repairs (p : Pass) (i : Nat) : Prop :=
  p = .repair i ∨ p = .lint

theorem Repairs.isValid {p : Pass} {i : Nat} (h : p.Repairs i) {ls : List Line} {m : Line}
    (hm : (p.lines ls)[i]? = some m) : Utf8.isValid m.data = true := by
  rcases h with rfl | rfl
  · rw [Pass.lines, List.getElem?_modify_eq] at hm
    obtain ⟨l, -, rfl⟩ := Option.map_eq_some_iff.mp hm
    exact Utf8.isValid_repair l.data
  · obtain ⟨k, hk, hkm⟩ := (LaterAll.of_joinAll (ls.map Line.repair)).later i m hm
    rw [List.getElem?_map] at hk
    obtain ⟨l, -, rfl⟩ := Option.map_eq_some_iff.mp hk
    exact hkm.valid (Utf8.isValid_repair l.data)

/-- The pass resolves the continuations of all lines. -/
def Resolves (p : Pass) : Prop :=
  p = .continuations ∨ p = .lint

theorem Resolves.isContinued {p : Pass} (h : p.Resolves) {ls : List Line} (hls : EndsMarked ls) :
    ∀ l ∈ (p.lines ls).getLast?, l.isContinued = false := by
  rcases h with rfl | rfl
  · exact hls.isContinued_joinAll
  · exact ((LaterAll.of_map Later.of_repair ls).endsMarked hls).isContinued_joinAll

end Pass

/-! ### Runs of passes -/

namespace Progress

theorem laterAll_run (s : Progress) (todo : List (Style × Pass)) :
    LaterAll s.lines (s.run todo).lines := by
  induction todo generalizing s with
  | nil => exact LaterAll.refl s.lines
  | cons t todo ih => exact (t.2.laterAll_lines s.lines).trans (ih (s.step t))

/-- A run can be cut at any of its passes. -/
theorem run_cut (s : Progress) (before after : List (Style × Pass)) (style : Style) (p : Pass) :
    s.run (before ++ (style, p) :: after) = ((s.run before).step (style, p)).run after := by
  rw [run, List.foldl_append]
  rfl

/-- Whatever passes are made over the lines of a source, each line stays what and where it was loaded
as, keeps the validity that a repair gave it, and the last one does not continue once continuations
have been resolved. -/
theorem run_load (r : Registry) (path : String) (nestLevel : Nat) (bytes : Bytes)
    (todo : List (Style × Pass)) :
    let loaded := load r path nestLevel bytes
    let reached := loaded.run todo
    reached.lines.length = loaded.lines.length ∧
      (∀ i l, reached.lines[i]? = some l →
        l.number = i + 1 ∧ l.path = path ∧ l.nestLevel = nestLevel ∧
          (l.eof = true ↔ i + 1 = reached.lines.length) ∧
          Byte.nul ∉ l.data ∧ Byte.newline ∉ l.data) ∧
      (∀ before style p after i, todo = before ++ (style, p) :: after → p.Repairs i →
        ∀ l, reached.lines[i]? = some l → ∃ text, l.data = Utf8.encode text) ∧
      ∀ before style p, todo = before ++ [(style, p)] → p.Resolves →
        ∀ l ∈ reached.lines.getLast?, l.isContinued = false := by
  intro loaded reached
  have hreached : LaterAll (ofBytes path nestLevel bytes) reached.lines := laterAll_run loaded todo
  refine ⟨hreached.length, ?_, ?_, ?_⟩
  · intro i m hm
    obtain ⟨hnumber, hpath, hnestLevel, heof, hframed⟩ := hreached.place hm
    exact ⟨hnumber, hpath, hnestLevel, heof, hframed.nul, hframed.newline⟩
  · intro before style p after i htodo hrepairs m hm
    unfold reached at hm
    rw [htodo, run_cut] at hm
    obtain ⟨l, hl, hlm⟩ := (laterAll_run _ after).later i m hm
    exact (Utf8.isValid_iff m.data).mp (hlm.valid (hrepairs.isValid hl))
  · intro before style p htodo hresolves
    have hmarked : EndsMarked (loaded.run before).lines :=
      (laterAll_run loaded before).endsMarked (endsMarked_ofBytes path nestLevel bytes)
    unfold reached
    rw [htodo, run_cut]
    exact hresolves.isContinued hmarked

end Progress

end MakeLint
