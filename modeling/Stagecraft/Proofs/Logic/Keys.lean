/-
This file shows that no two slots share a key. What stands before the first dot tells the families
of slots apart. After it an action's number ends at the next dot, and the name of a trigger, of a
timeline or of a sound may hold dots itself, but the fields that can follow it are such that none
of them ends another one.
-/

import Mathlib
import Stagecraft.Logic.Slot

namespace Stagecraft

/-! ### Fields -/

/-- A function that lists without repetition separates the members of the list. -/
theorem eq_of_nodup_map {α β : Type} {f : α → β} (all : List α) (distinct : (all.map f).Nodup)
    (complete : ∀ value, value ∈ all) {first second : α} (same : f first = f second) :
    first = second :=
  List.inj_on_of_nodup_map distinct (complete first) (complete second) same

def Channel.every : List Channel :=
  [.visible, .alpha] ++ Axis.all.map .position ++ Part.all.map .orientation

theorem Channel.mem_every (channel : Channel) : channel ∈ Channel.every := by
  cases channel with
  | visible => decide
  | alpha => decide
  | position axis => cases axis <;> decide
  | orientation part => cases part <;> decide

theorem Channel.key_injective : Function.Injective Channel.key := fun _ _ =>
  eq_of_nodup_map Channel.every (by decide) Channel.mem_every

theorem Axis.name_injective : Function.Injective Axis.name := by
  intro first second same
  cases first <;> cases second <;> first | rfl | exact absurd same (by decide)

def ActionField.every : List ActionField :=
  [.active, .elapsed, .delta] ++ Channel.every.map .change ++ Axis.all.map .target ++
    Axis.all.map .step ++ Part.all.map .goal ++ Part.all.map .turn ++ Part.all.map .origin

theorem ActionField.mem_every (field : ActionField) : field ∈ ActionField.every := by
  cases field with
  | active => decide
  | elapsed => decide
  | delta => decide
  | change channel =>
    have member := List.mem_map_of_mem (f := ActionField.change) channel.mem_every
    simp only [every, List.mem_append, member, true_or, or_true]
  | target axis => cases axis <;> decide
  | step axis => cases axis <;> decide
  | goal part => cases part <;> decide
  | turn part => cases part <;> decide
  | origin part => cases part <;> decide

theorem ActionField.key_injective : Function.Injective ActionField.key := fun _ _ =>
  eq_of_nodup_map ActionField.every (by decide) ActionField.mem_every

/-! ### Names and fields -/

/-- A field with the dot before it, as it ends a key. -/
def ending (field : String) : List Char :=
  '.' :: field.toList

/-- Where no ending of a list ends another one, a text that has one of them as its end has no other
one. -/
theorem eq_of_append_ending {endings : List (List Char)}
    (apart : ∀ first ∈ endings, ∀ second ∈ endings, first <:+ second → first = second)
    {name name' last last' : List Char} (member : last ∈ endings) (member' : last' ∈ endings)
    (same : name ++ last = name' ++ last') : name = name' ∧ last = last' := by
  have either : last <:+ last' ∨ last' <:+ last :=
    List.suffix_or_suffix_of_suffix (List.suffix_append name last)
      (same ▸ List.suffix_append name' last')
  have equal : last = last' := by
    rcases either with ends | ends
    · exact apart last member last' member' ends
    · exact (apart last' member' last member ends).symm
  subst equal
  exact ⟨List.append_cancel_right same, rfl⟩

def WatchField.every : List WatchField :=
  [.previous, .state, .primed] ++ Axis.all.map .last

theorem WatchField.mem_every (field : WatchField) : field ∈ WatchField.every := by
  cases field with
  | last axis => cases axis <;> decide
  | _ => decide

theorem WatchField.key_injective : Function.Injective WatchField.key := fun _ _ =>
  eq_of_nodup_map WatchField.every (by decide) WatchField.mem_every

theorem WatchField.endings_apart :
    ∀ first ∈ (WatchField.every.map WatchField.key).map ending,
      ∀ second ∈ (WatchField.every.map WatchField.key).map ending,
        first <:+ second → first = second := by
  decide

def TimelineField.every : List TimelineField :=
  [.running, .started, .elapsed, .cursor]

theorem TimelineField.mem_every (field : TimelineField) : field ∈ TimelineField.every := by
  cases field <;> decide

theorem TimelineField.key_injective : Function.Injective TimelineField.key := fun _ _ =>
  eq_of_nodup_map TimelineField.every (by decide) TimelineField.mem_every

theorem TimelineField.endings_apart :
    ∀ first ∈ (TimelineField.every.map TimelineField.key).map ending,
      ∀ second ∈ (TimelineField.every.map TimelineField.key).map ending,
        first <:+ second → first = second := by
  decide

def SoundField.every : List SoundField :=
  [.volume, .playing]

theorem SoundField.mem_every (field : SoundField) : field ∈ SoundField.every := by
  cases field <;> decide

theorem SoundField.key_injective : Function.Injective SoundField.key := fun _ _ =>
  eq_of_nodup_map SoundField.every (by decide) SoundField.mem_every

theorem SoundField.endings_apart :
    ∀ first ∈ (SoundField.every.map SoundField.key).map ending,
      ∀ second ∈ (SoundField.every.map SoundField.key).map ending,
        first <:+ second → first = second := by
  decide

/-! ### Families -/

namespace Slot

/-- What can stand before the first dot of a key, with the family of slots that it tells of. -/
def families : List (String × Nat) :=
  [("visible", 0), ("alpha", 0), ("position", 0), ("orientation", 0), ("forward", 1),
    ("clicked", 2), ("__init", 3), ("act", 4), ("trig", 5), ("link", 5), ("tl", 6), ("sound", 7),
    ("reset", 8)]

/-- What stands before the first dot of a key. -/
def stem (slot : Slot) : String :=
  String.ofList (slot.key.toList.takeWhile (· ≠ '.'))

/-- The family of a slot by its constructor. -/
def family : Slot → Nat
  | .channel _ => 0
  | .forward _ => 1
  | .clicked => 2
  | .initialized => 3
  | .action .. => 4
  | .watch .. => 5
  | .timeline .. => 6
  | .sound .. => 7
  | .captured _ => 8

theorem lookup_stem (slot : Slot) : families.lookup slot.stem = some slot.family := by
  cases slot with
  | channel seen =>
    cases seen with
    | position axis => cases axis <;> decide
    | orientation part => cases part <;> decide
    | _ => decide
  | forward axis => cases axis <;> decide
  | clicked => decide
  | initialized => decide
  | action number field => simp [stem, key, actionKey, actionPrefix, families, family, List.lookup_cons]
  | watch watch field =>
    cases watch <;> simp [stem, key, triggerKey, triggerPrefix, linkKey, families, family, List.lookup_cons]
  | timeline name field => simp [stem, key, timelineKey, families, family, List.lookup_cons]
  | sound name field => simp [stem, key, soundKey, families, family, List.lookup_cons]
  | captured seen => simp [stem, key, capturedKey, families, family, List.lookup_cons]

theorem family_eq_of_key_eq {first second : Slot} (same : first.key = second.key) :
    first.family = second.family := by
  have stems : first.stem = second.stem := by rw [stem, same, stem]
  apply Option.some.inj
  rw [← lookup_stem, ← lookup_stem, stems]

/-! ### Numbers and names -/

theorem dot_notMem_toDigits (number : Nat) : '.' ∉ Nat.toDigits 10 number := fun member =>
  absurd (Nat.isDigit_of_mem_toDigits (by decide) (by decide) member) (by decide)

/-- The first dot of a text divides it in one way. -/
theorem eq_of_append_dot {front front' rest rest' : List Char} (free : '.' ∉ front)
    (free' : '.' ∉ front') (same : front ++ '.' :: rest = front' ++ '.' :: rest') :
    front = front' ∧ rest = rest' := by
  induction front generalizing front' with
  | nil =>
    cases front' with
    | nil => exact ⟨rfl, (List.cons.inj same).2⟩
    | cons c front' => exact absurd (by simp [← (List.cons.inj same).1]) free'
  | cons c front inductionHypothesis =>
    cases front' with
    | nil => exact absurd (by simp [(List.cons.inj same).1]) free
    | cons c' front' =>
      simp only [List.cons_append, List.cons.injEq] at same
      obtain ⟨fronts, rests⟩ := inductionHypothesis (fun member => free (by simp [member]))
        (fun member => free' (by simp [member])) same.2
      exact ⟨by rw [same.1, fronts], rests⟩

theorem actionKey_injective {number number' : Nat} {field field' : String}
    (same : actionKey number field = actionKey number' field') :
    number = number' ∧ field = field' := by
  have texts : Nat.toDigits 10 number ++ '.' :: field.toList =
      Nat.toDigits 10 number' ++ '.' :: field'.toList := by
    simpa [actionKey, actionPrefix, ← String.toList_inj, Nat.toList_repr] using same
  obtain ⟨digits, fields⟩ :=
    eq_of_append_dot (dot_notMem_toDigits number) (dot_notMem_toDigits number') texts
  refine ⟨?_, String.toList_inj.mp fields⟩
  rw [← Nat.ofDigitChars_ten_toDigits (n := number), digits, Nat.ofDigitChars_ten_toDigits]

/-- A name and a field that stand behind a common beginning can be read back, if the fields end on
none of each other. -/
theorem eq_of_named (start : String) {name name' field field' : String} {fields : List String}
    (apart : ∀ first ∈ fields.map ending, ∀ second ∈ fields.map ending,
      first <:+ second → first = second)
    (member : field ∈ fields) (member' : field' ∈ fields)
    (same : start ++ name ++ "." ++ field = start ++ name' ++ "." ++ field') :
    name = name' ∧ field = field' := by
  have texts : name.toList ++ ending field = name'.toList ++ ending field' := by
    simpa [ending, ← String.toList_inj] using same
  obtain ⟨names, endings⟩ := eq_of_append_ending apart (List.mem_map_of_mem member)
    (List.mem_map_of_mem member') texts
  exact ⟨String.toList_inj.mp names, String.toList_inj.mp (List.cons.inj endings).2⟩

/-! ### Slots -/

/-- A trigger's fields start with another word than those of a link. -/
theorem watch_eq_of_key_eq {watch watch' : Watch} {field field' : WatchField}
    (same : (Slot.watch watch field).key = (Slot.watch watch' field').key) :
    Slot.watch watch field = Slot.watch watch' field' := by
  cases watch <;> cases watch'
  case trigger.trigger name name' =>
    obtain ⟨names, fields⟩ := eq_of_named "trig." WatchField.endings_apart
      (List.mem_map_of_mem field.mem_every) (List.mem_map_of_mem field'.mem_every) same
    rw [names, WatchField.key_injective fields]
  case link.link =>
    simp only [key, linkKey, String.append_right_inj] at same
    rw [WatchField.key_injective same]
  all_goals
    have starts := congrArg (fun text => text.toList.take 2) same
    simp [key, triggerKey, triggerPrefix, linkKey] at starts

/-- No two slots share a key. -/
theorem key_injective : Function.Injective key := by
  intro first second same
  have families := family_eq_of_key_eq same
  cases first <;> cases second
  case channel.channel => exact congrArg channel (Channel.key_injective same)
  case forward.forward =>
    simp only [key, String.append_right_inj] at same
    exact congrArg forward (Axis.name_injective same)
  case clicked.clicked => rfl
  case initialized.initialized => rfl
  case action.action =>
    obtain ⟨numbers, fields⟩ := actionKey_injective same
    rw [numbers, ActionField.key_injective fields]
  case watch.watch watch field watch' field' => exact watch_eq_of_key_eq same
  case timeline.timeline name field name' field' =>
    obtain ⟨names, fields⟩ := eq_of_named "tl." TimelineField.endings_apart
      (List.mem_map_of_mem field.mem_every) (List.mem_map_of_mem field'.mem_every) same
    rw [names, TimelineField.key_injective fields]
  case sound.sound name field name' field' =>
    obtain ⟨names, fields⟩ := eq_of_named "sound." SoundField.endings_apart
      (List.mem_map_of_mem field.mem_every) (List.mem_map_of_mem field'.mem_every) same
    rw [names, SoundField.key_injective fields]
  case captured.captured =>
    simp only [key, capturedKey, String.append_right_inj] at same
    exact congrArg captured (Channel.key_injective same)
  all_goals simp [family] at families

@[simp] theorem key_inj {first second : Slot} : first.key = second.key ↔ first = second :=
  key_injective.eq_iff

end Slot

end Stagecraft
