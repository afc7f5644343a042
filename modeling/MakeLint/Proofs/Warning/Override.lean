import MakeLint.Proofs.Text.Blank
import MakeLint.Proofs.Warning.Registry
import Mathlib.Data.List.Forall2
/-!
# The grammar of overrides

What an argument has to look like to give a class its action, and which part of it is named when it is
turned down. The class is looked up before the action is looked at, so of two bad parts the first one
is reported. An argument means one override at most, because no two classes and no two actions have
spellings in common; and the spellings of an override are its names with any white space around them
and any case of the letters of its action.
-/

namespace MakeLint

namespace Action

theorem mem_all (action : Action) : action ∈ all := by
  cases action <;> decide

theorem isAlpha_of_mem_name (action : Action) : ∀ c ∈ action.name.toList, c.isAlpha = true := by
  cases action <;> simp [name]

end Action

namespace WarningClass

theorem isAlpha_of_mem_name (cls : WarningClass) :
    ∀ c ∈ cls.name.toList, c = '-' ∨ c.isAlpha = true := by
  cases cls <;> simp [name]

theorem isWhite_of_mem_name (cls : WarningClass) :
    ∀ c ∈ cls.name.toList, Text.isWhite c = false := by
  intro c hc
  rcases cls.isAlpha_of_mem_name c hc with rfl | hletter
  · decide
  · exact Text.isWhite_of_isAlpha hletter

theorem equals_not_mem_name (cls : WarningClass) : '=' ∉ cls.name.toList := by
  intro hmem
  have hequals := cls.isAlpha_of_mem_name '=' hmem
  revert hequals
  decide

end WarningClass

namespace Override

open Text

/-! ### Spellings -/

/-- The same letters, each in any case if it is one of ASCII. -/
def SameLetters (name written : List Char) : Prop :=
  List.Forall₂ (fun n w => w = Char.toUpper n ∨ w = Char.toLower n) name written

/-- What stands before the first `=` of an argument, and all of it if there is none. -/
def ClassPart (arg part : List Char) : Prop :=
  '=' ∉ part ∧ (arg = part ∨ ∃ right, arg = part ++ '=' :: right)

/-- An argument that stands for an override: a class, or a class and an action with `=` between them. -/
inductive Spells : List Char → Override → Prop
  | bare {arg : List Char} {cls : WarningClass} :
      '=' ∉ arg → Trimmed arg cls.name.toList → Spells arg ⟨cls, .warn⟩
  | assigned {left right written : List Char} {cls : WarningClass} {action : Action} :
      '=' ∉ left → Trimmed left cls.name.toList → Trimmed right written →
        SameLetters action.name.toList written → Spells (left ++ '=' :: right) ⟨cls, action⟩

/-- An argument whose class part is the name of no class. -/
structure UnknownClass (arg : List Char) (name : String) : Prop where
  named : ∃ part, ClassPart arg part ∧ Trimmed part name.toList
  unknown : ∀ cls : WarningClass, cls.name ≠ name

/-- An argument that gives a class an action by a name that no action has. -/
structure UnknownAction (arg : List Char) (name : String) : Prop where
  named : ∃ left right, arg = left ++ '=' :: right ∧ '=' ∉ left ∧
    (∃ cls : WarningClass, Trimmed left cls.name.toList) ∧ Trimmed right name.toList
  unknown : ∀ action : Action, ¬ SameLetters action.name.toList name.toList

/-- What is to become of an argument. -/
def Judged (arg : List Char) : Except Error Override → Prop
  | .ok o => Spells arg o
  | .error (.unknownClass name) => UnknownClass arg name
  | .error (.unknownAction name) => UnknownAction arg name

/-! ### Letters -/

theorem toNat_toLower (c : Char) :
    c.toLower.toNat = if 0x41 ≤ c.toNat ∧ c.toNat ≤ 0x5a then c.toNat + 0x20 else c.toNat := by
  unfold Char.toLower
  split
  · next h =>
    have hbounds : 0x41 ≤ c.toNat ∧ c.toNat ≤ 0x5a := h
    have hdistance : ('a'.val - 'A'.val).toNat = 0x20 := by decide
    rw [if_pos hbounds, Char.toNat, UInt32.toNat_add, hdistance]
    change (c.toNat + 0x20) % 2 ^ 32 = c.toNat + 0x20
    omega
  · next h => exact (if_neg h).symm

theorem toNat_toUpper (c : Char) :
    c.toUpper.toNat = if 0x61 ≤ c.toNat ∧ c.toNat ≤ 0x7a then c.toNat - 0x20 else c.toNat := by
  unfold Char.toUpper
  split
  · next h =>
    have hbounds : 0x61 ≤ c.toNat ∧ c.toNat ≤ 0x7a := h
    -- the distance down is taken as one up that wraps around
    have hdistance : ('A'.val - 'a'.val).toNat = 0xffffffe0 := by decide
    rw [if_pos hbounds, Char.toNat, UInt32.toNat_add, hdistance]
    change (c.toNat + 0xffffffe0) % 2 ^ 32 = c.toNat - 0x20
    omega
  · next h => exact (if_neg h).symm

theorem toLower_eq_iff (n w : Char) : n.toLower = w.toLower ↔ w = n.toUpper ∨ w = n.toLower := by
  rw [← Char.toNat_inj, ← Char.toNat_inj, ← Char.toNat_inj, toNat_toLower, toNat_toLower,
    toNat_toUpper]
  split_ifs <;> omega

theorem isAlpha_toLower (c : Char) : c.toLower.isAlpha = c.isAlpha := by
  rw [Bool.eq_iff_iff, isAlpha_iff, isAlpha_iff, toNat_toLower]
  split <;> omega

theorem isAlpha_toUpper (c : Char) : c.toUpper.isAlpha = c.isAlpha := by
  rw [Bool.eq_iff_iff, isAlpha_iff, isAlpha_iff, toNat_toUpper]
  split <;> omega

theorem lower_eq_iff (name written : List Char) :
    lower name = lower written ↔ SameLetters name written := by
  rw [lower, lower, SameLetters, ← List.forall₂_eq_eq_eq, List.forall₂_map_left_iff,
    List.forall₂_map_right_iff]
  simp only [toLower_eq_iff]

theorem SameLetters.isAlpha {name written : List Char} (h : SameLetters name written)
    (hname : ∀ c ∈ name, c.isAlpha = true) : ∀ c ∈ written, c.isAlpha = true := by
  induction h with
  | nil => exact hname
  | @cons n w name written hsame _ ih =>
    rw [List.forall_mem_cons] at hname ⊢
    refine ⟨?_, ih hname.2⟩
    rcases hsame with rfl | rfl
    · rw [isAlpha_toUpper, hname.1]
    · rw [isAlpha_toLower, hname.1]

theorem lower_name_injective {a b : Action} (h : lower a.name.toList = lower b.name.toList) : a = b := by
  have hall : ∀ a ∈ Action.all, ∀ b ∈ Action.all,
      lower a.name.toList = lower b.name.toList → a = b := by decide
  exact hall a (Action.mem_all a) b (Action.mem_all b) h

theorem lower_eq_of_action? {written : List Char} {action : Action}
    (h : action? written = some action) : lower action.name.toList = lower written := by
  rw [action?] at h
  have hsame := List.find?_some h
  exact of_decide_eq_true hsame

/-- An action is found under the spellings of its own name only. -/
theorem action?_eq_some_iff {written : List Char} {action : Action} :
    action? written = some action ↔ SameLetters action.name.toList written := by
  rw [← lower_eq_iff]
  constructor
  · exact lower_eq_of_action?
  · intro h
    have hfound : (action? written).isSome = true := by
      rw [action?, List.find?_isSome]
      exact ⟨action, Action.mem_all action, decide_eq_true h⟩
    obtain ⟨other, hother⟩ := Option.isSome_iff_exists.mp hfound
    rw [hother, lower_name_injective ((lower_eq_of_action? hother).trans h.symm)]

theorem action?_eq_none_iff {written : List Char} :
    action? written = none ↔ ∀ action : Action, ¬ SameLetters action.name.toList written := by
  rw [Option.eq_none_iff_forall_ne_some]
  exact forall_congr' fun action => not_congr action?_eq_some_iff

/-! ### The parts of an argument -/

theorem parts_bare {arg : List Char} (h : '=' ∉ arg) : parts arg = (trim arg, none) := by
  rw [parts, splitFirst?_eq_none_iff.mpr h]

theorem parts_assigned {left : List Char} (h : '=' ∉ left) (right : List Char) :
    parts (left ++ '=' :: right) = (trim left, some (trim right)) := by
  rw [parts, splitFirst?_append h]

theorem ClassPart.parts_fst {arg part : List Char} (h : ClassPart arg part) :
    (parts arg).1 = trim part := by
  obtain ⟨hpart, rfl | ⟨right, rfl⟩⟩ := h
  · rw [parts_bare hpart]
  · rw [parts_assigned hpart]

theorem Spells.parse_eq {arg : List Char} {o : Override} (h : Spells arg o) :
    parse (String.ofList arg) = .ok o := by
  cases h with
  | bare hbare hcls =>
    simp only [parse, String.toList_ofList, parts_bare hbare, hcls.trim_eq, String.ofList_toList,
      WarningClass.ofName?_eq_some_iff.mpr rfl]
  | assigned hleft hcls hright haction =>
    simp only [parse, String.toList_ofList, parts_assigned hleft, hcls.trim_eq, hright.trim_eq,
      String.ofList_toList, WarningClass.ofName?_eq_some_iff.mpr rfl, action?_eq_some_iff.mpr haction]

theorem UnknownClass.parse_eq {arg : List Char} {name : String} (h : UnknownClass arg name) :
    parse (String.ofList arg) = .error (.unknownClass name) := by
  obtain ⟨⟨part, hpart, htrim⟩, hunknown⟩ := h
  simp only [parse, String.toList_ofList, hpart.parts_fst, htrim.trim_eq, String.ofList_toList,
    WarningClass.ofName?_eq_none_iff.mpr hunknown]

theorem UnknownAction.parse_eq {arg : List Char} {name : String} (h : UnknownAction arg name) :
    parse (String.ofList arg) = .error (.unknownAction name) := by
  obtain ⟨⟨left, right, rfl, hleft, ⟨cls, hcls⟩, hright⟩, hunknown⟩ := h
  simp only [parse, String.toList_ofList, parts_assigned hleft, hcls.trim_eq, hright.trim_eq,
    String.ofList_toList, WarningClass.ofName?_eq_some_iff.mpr rfl, action?_eq_none_iff.mpr hunknown]

theorem Judged.parse_eq {arg : List Char} {outcome : Except Error Override}
    (h : Judged arg outcome) : parse (String.ofList arg) = outcome := by
  match outcome with
  | .ok _ => exact Spells.parse_eq h
  | .error (.unknownClass _) => exact UnknownClass.parse_eq h
  | .error (.unknownAction _) => exact UnknownAction.parse_eq h

/-! ### Every argument -/

theorem unknownAction_of_trim {left right : List Char} {cls : WarningClass} (hleft : '=' ∉ left)
    (hcls : Trimmed left cls.name.toList)
    (hunknown : ∀ action : Action, ¬ SameLetters action.name.toList (trim right)) :
    UnknownAction (left ++ '=' :: right) (String.ofList (trim right)) := by
  refine ⟨⟨left, right, rfl, hleft, ⟨cls, hcls⟩, ?_⟩, ?_⟩
  · rw [String.toList_ofList]
    exact trimmed_trim right
  · rwa [String.toList_ofList]

/-- An argument stands for an override, or names no class, or names no action for its class. -/
theorem exists_judged (arg : List Char) : ∃ outcome, Judged arg outcome := by
  obtain ⟨left, hclass, hsplit⟩ : ∃ left, ClassPart arg left ∧
      ('=' ∉ arg ∧ arg = left ∨ ∃ right, arg = left ++ '=' :: right) := by
    by_cases hequals : '=' ∈ arg
    · obtain ⟨left, right, rfl, hleft⟩ := List.eq_append_cons_of_mem hequals
      exact ⟨left, ⟨hleft, .inr ⟨right, rfl⟩⟩, .inr ⟨right, rfl⟩⟩
    · exact ⟨arg, ⟨hequals, .inl rfl⟩, .inl ⟨hequals, rfl⟩⟩
  have htrim := trimmed_trim left
  cases hcls : WarningClass.ofName? (String.ofList (trim left)) with
  | none =>
    refine ⟨.error (.unknownClass _), ⟨left, hclass, ?_⟩, WarningClass.ofName?_eq_none_iff.mp hcls⟩
    rwa [String.toList_ofList]
  | some cls =>
    have hname : trim left = cls.name.toList := by
      rw [← WarningClass.ofName?_eq_some_iff.mp hcls, String.toList_ofList]
    rw [hname] at htrim
    rcases hsplit with ⟨hbare, rfl⟩ | ⟨right, rfl⟩
    · exact ⟨.ok _, .bare hbare htrim⟩
    · cases haction : action? (trim right) with
      | none =>
        exact ⟨.error (.unknownAction _),
          unknownAction_of_trim hclass.1 htrim (action?_eq_none_iff.mp haction)⟩
      | some action =>
        exact ⟨.ok _, .assigned hclass.1 htrim (trimmed_trim right) (action?_eq_some_iff.mp haction)⟩

/-- Parsing is the one way to judge an argument. -/
theorem parse_eq_iff (s : String) (outcome : Except Error Override) :
    parse s = outcome ↔ Judged s.toList outcome := by
  have hparse {outcome : Except Error Override} (h : Judged s.toList outcome) :
      parse s = outcome := by
    rw [← h.parse_eq, String.ofList_toList]
  constructor
  · rintro rfl
    obtain ⟨outcome, h⟩ := exists_judged s.toList
    rwa [hparse h]
  · exact hparse

theorem getElem?_toList_append (left right : String) {i : Nat} (hi : i < left.toList.length) :
    (left ++ right).toList[i]? = left.toList[i]? := by
  rw [String.toList_append, List.getElem?_append_left hi]

theorem message_ne (name other : String) :
    (Error.unknownClass name).message ≠ (Error.unknownAction other).message := by
  intro h
  unfold Error.message at h
  dsimp only at h
  rw [String.append_assoc, String.append_assoc] at h
  -- the ninth character is the first one behind "unknown "
  have hletter := congrArg (fun s => s.toList[8]?) h
  rw [getElem?_toList_append _ _ (by simp), getElem?_toList_append _ _ (by simp)] at hletter
  revert hletter
  decide

/-- No two reasons for turning down an argument read the same. -/
theorem message_injective : Function.Injective Error.message := by
  rintro (name | name) (other | other) h
  · unfold Error.message at h
    dsimp only at h
    rw [String.append_left_inj, String.append_right_inj] at h
    rw [h]
  · exact absurd h (message_ne name other)
  · exact absurd h.symm (message_ne other name)
  · unfold Error.message at h
    dsimp only at h
    rw [String.append_left_inj, String.append_right_inj] at h
    rw [h]

theorem mapError_message_eq_iff (outcome : Except Error Override) (e : Error) :
    outcome.mapError Error.message = .error e.message ↔ outcome = .error e := by
  cases outcome with
  | ok o => simp [Except.mapError]
  | error other => simp [Except.mapError, message_injective.eq_iff]

/-- An argument is accepted exactly when it spells an override, and turned down with the message for
the first of its parts that is no name. It spells one override at most, and every override is read back
from its names with any white space around them and any case of the letters of its action. -/
theorem parse_grammar :
    (∀ s o, parse s = .ok o ↔ Spells s.toList o) ∧
      (∀ s name, (parse s).mapError Error.message = .error (Error.unknownClass name).message ↔
        UnknownClass s.toList name) ∧
      (∀ s name, (parse s).mapError Error.message = .error (Error.unknownAction name).message ↔
        UnknownAction s.toList name) ∧
      (∀ left right (cls : WarningClass), '=' ∉ left → Trimmed left cls.name.toList →
        ('=' ∈ right ∨ ∀ c ∈ right, isWhite c = true) →
          ∃ name, UnknownAction (left ++ '=' :: right) name) ∧
      (∀ arg o o', Spells arg o → Spells arg o' → o = o') ∧
      ∀ (o : Override) (left right written : List Char), Padded left o.cls.name.toList →
        SameLetters o.action.name.toList written → Padded right written →
          parse (String.ofList (left ++ '=' :: right)) = .ok o := by
  refine ⟨fun s o => parse_eq_iff s (.ok o), ?_, ?_, ?_, ?_, ?_⟩
  · intro s name
    exact (mapError_message_eq_iff _ _).trans (parse_eq_iff s _)
  · intro s name
    exact (mapError_message_eq_iff _ _).trans (parse_eq_iff s _)
  · intro left right cls hleft hcls hright
    refine ⟨_, unknownAction_of_trim hleft hcls fun action hsame => ?_⟩
    rcases hright with hequals | hwhite
    · have hmem := ((trimmed_trim right).padded.mem_iff (by decide)).mp hequals
      have halpha := hsame.isAlpha action.isAlpha_of_mem_name '=' hmem
      revert halpha
      decide
    · rw [trim_eq_nil hwhite] at hsame
      have hlength := hsame.length_eq
      revert hlength
      cases action <;> decide
  · intro arg o o' h h'
    rw [← Except.ok.injEq, ← h.parse_eq, h'.parse_eq]
  · intro o left right written hleft hwritten hright
    have hletters := hwritten.isAlpha o.action.isAlpha_of_mem_name
    have hequals : '=' ∉ left := by
      rw [hleft.mem_iff (by decide)]
      exact o.cls.equals_not_mem_name
    exact Spells.parse_eq (.assigned hequals (hleft.trimmed o.cls.isWhite_of_mem_name)
      (hright.trimmed fun c hc => isWhite_of_isAlpha (hletters c hc)) hwritten)

/-- A no-break space before the class, a tab behind it, and an action in mixed case. -/
theorem parse_grammar_padded :
    Padded "\u00a0text\t".toList WarningClass.text.name.toList ∧
      SameLetters Action.inform.name.toList "INForm".toList ∧
      Padded " INForm".toList "INForm".toList ∧
      parse "\u00a0text\t= INForm" = .ok ⟨.text, .inform⟩ := by
  have hclass : Padded "\u00a0text\t".toList WarningClass.text.name.toList :=
    ⟨['\u00a0'], ['\t'], by decide, by simp [isWhite], by simp [isWhite]⟩
  have hletters : SameLetters Action.inform.name.toList "INForm".toList :=
    (lower_eq_iff _ _).mp (by decide)
  have haction : Padded " INForm".toList "INForm".toList :=
    ⟨[' '], [], by decide, by simp [isWhite], by simp⟩
  exact ⟨hclass, hletters, haction,
    parse_grammar.2.2.2.2.2 ⟨.text, .inform⟩ _ _ _ hclass hletters haction⟩

end Override

end MakeLint
