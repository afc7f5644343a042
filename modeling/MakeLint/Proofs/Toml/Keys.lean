import MakeLint.Toml.Parser
import Mathlib.Data.List.Nodup
/-!
# The keys of a table are distinct

Reading a document never puts a key into a table twice: a key that stands there already is either
refused or has its value replaced. This holds of the document's own table and of the tables that are
its values, be they written with a header, with dotted keys or in braces. Reading goes down a path of
keys and changes what is at its end, so that what the end keeps has to be kept on the way back up.
-/

namespace MakeLint.Toml

namespace Entries

def keys (entries : Entries) : List String :=
  entries.map Prod.fst

/-- No key stands there twice. -/
def Distinct (entries : Entries) : Prop :=
  entries.keys.Nodup

theorem keys_put (entries : Entries) (key : String) (v : Value) :
    (entries.put key v).keys = if key ∈ entries.keys then entries.keys else entries.keys ++ [key] := by
  induction entries with
  | nil => simp [put, keys]
  | cons entry rest ih =>
    obtain ⟨k, old⟩ := entry
    rw [put]
    by_cases hk : k = key
    · simp [keys, hk]
    · rw [if_neg hk]
      change k :: keys (put rest key v) = _
      rw [ih]
      by_cases hmem : key ∈ keys rest
      · have hmem' : key ∈ keys ((k, old) :: rest) := List.mem_cons_of_mem k hmem
        rw [if_pos hmem, if_pos hmem']
        rfl
      · have hmem' : key ∉ keys ((k, old) :: rest) := by
          intro hin
          rcases List.mem_cons.mp hin with rfl | hin
          · exact hk rfl
          · exact hmem hin
        rw [if_neg hmem, if_neg hmem']
        rfl

theorem Distinct.put {entries : Entries} (h : entries.Distinct) (key : String) (v : Value) :
    (entries.put key v).Distinct := by
  rw [Distinct, keys_put]
  split
  · exact h
  · next hnew =>
    rw [List.nodup_append]
    refine ⟨h, List.nodup_singleton key, ?_⟩
    rintro a ha b hb rfl
    exact hnew (List.mem_singleton.mp hb ▸ ha)

theorem distinct_nil : Distinct [] :=
  List.nodup_nil

theorem mem_put {entries : Entries} {key : String} {v : Value} {entry : String × Value}
    (h : entry ∈ entries.put key v) : entry ∈ entries ∨ entry = (key, v) := by
  induction entries with
  | nil => exact .inr (List.mem_singleton.mp h)
  | cons first rest ih =>
    obtain ⟨k, old⟩ := first
    rw [put] at h
    split at h
    · next hk =>
      rcases List.mem_cons.mp h with rfl | h
      · exact .inr (hk ▸ rfl)
      · exact .inl (List.mem_cons_of_mem _ h)
    · rcases List.mem_cons.mp h with rfl | h
      · exact .inl List.mem_cons_self
      · exact (ih h).imp_left (List.mem_cons_of_mem _)

end Entries

/-- Where the value is a table, its keys are distinct. -/
def Value.Distinct : Value → Prop
  | .table _ entries => Entries.Distinct entries
  | _ => True

namespace Entries

/-- The keys are distinct, and so are those of each table among the values. -/
structure Sound (entries : Entries) : Prop where
  distinct : entries.Distinct
  values : ∀ entry ∈ entries, entry.2.Distinct

theorem sound_nil : Sound [] :=
  ⟨distinct_nil, by simp⟩

theorem Sound.put {entries : Entries} (h : entries.Sound) (key : String) {v : Value}
    (hv : v.Distinct) : (entries.put key v).Sound := by
  refine ⟨h.distinct.put key v, ?_⟩
  intro entry hentry
  rcases mem_put hentry with hold | rfl
  · exact h.values entry hold
  · exact hv

theorem Sound.get? {entries : Entries} (h : entries.Sound) {key : String} {v : Value}
    (hv : entries.get? key = some v) : v.Distinct := by
  obtain ⟨before, after, hsplit, -⟩ := List.lookup_eq_some_iff.mp hv
  have hmem : (key, v) ∈ entries := by
    rw [hsplit]
    simp
  exact h.values _ hmem

/-! ### Changes at the end of a path -/

variable {dotted : Bool} {f : Origin → Entries → Option Entries} {path : List String}
  {origin : Origin} {entries after : Entries}

/-- On the way down a path one value is replaced: by a table that the rest of the way has made of a
table that stood there or of an empty one, or by tables of an array. -/
theorem modifyAt_cons {key : String}
    (h : entries.modifyAt dotted f (key :: path) origin = some after) :
    ∃ v, after = entries.put key v ∧
      ((∃ ts, v = .tables ts) ∨
        ∃ o t t', v = .table o t' ∧ Entries.modifyAt dotted f path o t = some t' ∧
          (t = [] ∨ entries.get? key = some (.table o t))) := by
  rw [modifyAt] at h
  split at h
  · obtain ⟨t', ht', rfl⟩ := Option.map_eq_some_iff.mp h
    exact ⟨_, rfl, .inr ⟨_, [], t', rfl, ht', .inl rfl⟩⟩
  · cases h
  · next o t _ hget =>
    split at h
    · cases h
    · obtain ⟨t', ht', rfl⟩ := Option.map_eq_some_iff.mp h
      exact ⟨_, rfl, .inr ⟨o, t, t', rfl, ht', .inr hget⟩⟩
  · obtain ⟨t', -, rfl⟩ := Option.map_eq_some_iff.mp h
    exact ⟨_, rfl, .inl ⟨_, rfl⟩⟩
  · cases h

theorem Distinct.modifyAt (h : entries.Distinct)
    (hf : ∀ o t t', Distinct t → f o t = some t' → Distinct t')
    (hafter : entries.modifyAt dotted f path origin = some after) : after.Distinct := by
  cases path with
  | nil => exact hf origin entries after h hafter
  | cons key path =>
    obtain ⟨v, rfl, -⟩ := modifyAt_cons hafter
    exact h.put key v

theorem Sound.modifyAt (h : entries.Sound)
    (hdistinct : ∀ o t t', Distinct t → f o t = some t' → Distinct t')
    (hsound : ∀ o t t', Sound t → f o t = some t' → Sound t')
    (hafter : entries.modifyAt dotted f path origin = some after) : after.Sound := by
  cases path with
  | nil => exact hsound origin entries after h hafter
  | cons key path =>
    obtain ⟨v, rfl, ⟨ts, rfl⟩ | ⟨o, t, t', rfl, ht', hold⟩⟩ := modifyAt_cons hafter
    · exact h.put key trivial
    · have ht : Distinct t := by
        rcases hold with rfl | hget
        · exact distinct_nil
        · exact h.get? hget
      exact h.put key (ht.modifyAt hdistinct ht')

/-! ### Adding to a table -/

theorem Distinct.addKey {key : String} {v : Value} (h : entries.Distinct)
    (hafter : entries.addKey path key v = some after) : after.Distinct := by
  refine h.modifyAt ?_ hafter
  intro o t t' ht ht'
  split at ht'
  · cases ht'
  · exact Option.some.inj ht' ▸ ht.put key v

theorem Sound.addKey {key : String} {v : Value} (h : entries.Sound) (hv : v.Distinct)
    (hafter : entries.addKey path key v = some after) : after.Sound := by
  refine h.modifyAt ?_ ?_ hafter
  · intro o t t' ht ht'
    split at ht'
    · cases ht'
    · exact Option.some.inj ht' ▸ ht.put key v
  · intro o t t' ht ht'
    split at ht'
    · cases ht'
    · exact Option.some.inj ht' ▸ ht.put key hv

theorem Sound.addTable {key : String} (h : entries.Sound)
    (hafter : entries.addTable path key = some after) : after.Sound := by
  refine h.modifyAt ?_ ?_ hafter
  · intro o t t' ht ht'
    split at ht'
    · exact Option.some.inj ht' ▸ ht.put key _
    · exact Option.some.inj ht' ▸ ht.put key _
    · cases ht'
  · intro o t t' ht ht'
    split at ht'
    · exact Option.some.inj ht' ▸ ht.put key distinct_nil
    · next inner hget =>
      have hinner : Distinct inner := ht.get? hget
      exact Option.some.inj ht' ▸ ht.put key hinner
    · cases ht'

theorem Sound.addElement {key : String} (h : entries.Sound)
    (hafter : entries.addElement path key = some after) : after.Sound := by
  refine h.modifyAt ?_ ?_ hafter
  · intro o t t' ht ht'
    split at ht'
    · exact Option.some.inj ht' ▸ ht.put key _
    · exact Option.some.inj ht' ▸ ht.put key _
    · cases ht'
  · intro o t t' ht ht'
    split at ht'
    · exact Option.some.inj ht' ▸ ht.put key trivial
    · exact Option.some.inj ht' ▸ ht.put key trivial
    · cases ht'

end Entries

/-! ### Reading -/

open Entries

theorem distinct_pairs? {fuel depth : Nat} {entries after : Entries} {cs rest : List Char}
    (h : entries.Distinct) (hafter : pairs? fuel depth entries cs = some (after, rest)) :
    after.Distinct := by
  induction fuel generalizing entries cs with
  | zero => cases hafter
  | succ fuel ih =>
    rw [pairs?] at hafter
    split at hafter
    · split at hafter
      · cases hafter
      · split at hafter
        · next hadd _ => exact ih (h.addKey hadd) hafter
        · next hadd _ =>
          obtain ⟨rfl, -⟩ := Prod.mk.inj (Option.some.inj hafter)
          exact h.addKey hadd
        · cases hafter
    · cases hafter

/-- A word stands for no table. -/
theorem distinct_word? {v : Value} {cs rest : List Char} (h : word? cs = some (v, rest)) :
    v.Distinct := by
  unfold word? at h
  grind [Value.Distinct]

theorem distinct_stringValue {s : Lexed} {v : Value} {rest : List Char}
    (h : stringValue s = some (v, rest)) : v.Distinct := by
  obtain ⟨r, -, hr⟩ := Option.map_eq_some_iff.mp h
  obtain ⟨rfl, -⟩ := Prod.mk.inj hr
  trivial

theorem distinct_value? {fuel depth : Nat} {v : Value} {cs rest : List Char}
    (h : value? fuel depth cs = some (v, rest)) : v.Distinct := by
  cases fuel with
  | zero => cases h
  | succ fuel =>
    unfold value? at h
    split at h
    · exact distinct_stringValue h
    · exact distinct_stringValue h
    · exact distinct_stringValue h
    · exact distinct_stringValue h
    · split at h
      · obtain ⟨r, -, hr⟩ := Option.map_eq_some_iff.mp h
        obtain ⟨rfl, -⟩ := Prod.mk.inj hr
        trivial
      · cases h
    · split at h
      · split at h
        · obtain ⟨rfl, -⟩ := Prod.mk.inj (Option.some.inj h)
          exact distinct_nil
        · obtain ⟨r, hr, hv⟩ := Option.map_eq_some_iff.mp h
          obtain ⟨rfl, -⟩ := Prod.mk.inj hv
          exact distinct_pairs? distinct_nil hr
      · cases h
    · exact distinct_word? h

theorem sound_lines? {fuel : Nat} {header : List String} {root after : Entries} {cs : List Char}
    (h : root.Sound) (hafter : lines? fuel header root cs = some after) : after.Sound := by
  induction fuel generalizing header root cs with
  | zero => cases hafter
  | succ fuel ih =>
    rw [lines?] at hafter
    split at hafter
    · exact Option.some.inj hafter ▸ h
    · split at hafter
      · obtain ⟨next, hnext, hafter⟩ := Option.bind_eq_some_iff.mp hafter
        obtain ⟨tail, -, hafter⟩ := Option.bind_eq_some_iff.mp hafter
        exact ih (h.addElement hnext) hafter
      · cases hafter
    · split at hafter
      · obtain ⟨next, hnext, hafter⟩ := Option.bind_eq_some_iff.mp hafter
        obtain ⟨tail, -, hafter⟩ := Option.bind_eq_some_iff.mp hafter
        exact ih (h.addTable hnext) hafter
      · cases hafter
    · split at hafter
      · obtain ⟨tail, -, hafter⟩ := Option.bind_eq_some_iff.mp hafter
        exact ih h hafter
      · split at hafter
        · obtain ⟨⟨v, rest⟩, hv, hafter⟩ := Option.bind_eq_some_iff.mp hafter
          obtain ⟨next, hnext, hafter⟩ := Option.bind_eq_some_iff.mp hafter
          obtain ⟨tail, -, hafter⟩ := Option.bind_eq_some_iff.mp hafter
          have hsound : next.Sound :=
            h.modifyAt (fun _ _ _ ht ht' => ht.addKey ht')
              (fun _ _ _ ht ht' => ht.addKey (distinct_value? hv) ht') hnext
          exact ih hsound hafter
        · cases hafter

theorem sound_parse? {text : String} {entries : Entries} (h : parse? text = some entries) :
    entries.Sound :=
  sound_lines? sound_nil h

end MakeLint.Toml
