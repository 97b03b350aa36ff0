/-
This file shows that a written scene reads back, from the smallest part up. Every part is recovered
from its document by its decoder, provided that its numbers survive. An action shares an object with
its kind and, in a timeline, with its start; the names of the three are different, so each finds its
own members among all of them.
-/

import Stagecraft.Proofs.Json.Recovery
import Stagecraft.Scene.Reading
import Stagecraft.Scene.Writing

namespace Stagecraft

open Json

/-! ### The numbers of a scene -/

section

variable {α : Type}

def Rotation.numbers : Rotation α → List α
  | .unchanged => []
  | .axis around angle => around.toList ++ [angle]
  | .lookAt point up => point.toList ++ up.toList
  | .normal towards => towards.toList

def Placement.numbers (placement : Placement α) : List α :=
  (placement.position.toList.flatMap Vec.toList) ++ placement.rotation.numbers

def SoundChange.numbers : SoundChange α → List α
  | .start volume => [volume]
  | .stop => []

def ActionKind.numbers : ActionKind α → List α
  | .move placement _ => placement.numbers
  | .sound _ change => change.numbers
  | .group _ action => action.numbers
  | .visibility _ | .timeline .. | .reset | .triggerToggle .. => []

def Action.numbers (action : Action α) : List α :=
  action.duration :: action.kind.numbers

def TimedAction.numbers (entry : TimedAction α) : List α :=
  entry.start :: entry.action.numbers

def Timeline.numbers (timeline : Timeline α) : List α :=
  timeline.entries.flatMap TimedAction.numbers

def Anchor.numbers : Anchor α → List α
  | .point position => position.toList
  | .object _ => []

def LookTarget.numbers : LookTarget α → List α
  | .point position => position.toList
  | .direction towards => towards.toList
  | .object _ => []

def Condition.numbers : Condition α → List α
  | .orientation _ direction angle => direction.toList ++ [angle]
  | .proximity _ anchor distance => anchor.numbers ++ [distance]
  | .lookAt target angle => target.numbers ++ [angle]
  | .movement _ distance => [distance]
  | .volume _ least greatest _ => least.toList ++ greatest.toList

def Trigger.numbers (trigger : Trigger α) : List α :=
  trigger.condition.numbers ++ trigger.actions.flatMap Action.numbers ++ [trigger.epsilon]

/-- The numbers of an object, but for its children. -/
def SceneObject.numbers (object : SceneObject α) : List α :=
  object.position.toList ++ object.orientation.toList ++
    object.triggers.flatMap Trigger.numbers ++ object.timelines.flatMap Timeline.numbers ++
    object.linkActions.flatMap Action.numbers

def Scene.numbers (scene : Scene α) : List α :=
  scene.walk.flatMap SceneObject.numbers

end

/-! ### Vectors -/

theorem Vec.recovers {u : Vec Float} (survive : ∀ x ∈ u.toList, Survives x) :
    Decoder.Recovers Vec.decode u.toJson u where
  proper := isProper_list.mpr (List.forall_mem_map.mpr fun x member => (survive x member).isProper)
  decodes budget shallow := by
    obtain ⟨inner, rfl, -⟩ := depth_list_le_iff.mp shallow
    simp only [toList, List.forall_mem_cons] at survive
    obtain ⟨x, y, z, -⟩ := survive
    have parts : Vec.decode (inner + 1) u.toJson = do
      return ⟨← (ofFloat u.x).toFloat?, ← (ofFloat u.y).toFloat?, ← (ofFloat u.z).toFloat?⟩ := rfl
    rw [parts, x, y, z]
    rfl

theorem Quaternion.recovers {q : Quaternion Float} (survive : ∀ x ∈ q.toList, Survives x) :
    Decoder.Recovers Quaternion.decode q.toJson q where
  proper := isProper_list.mpr (List.forall_mem_map.mpr fun x member => (survive x member).isProper)
  decodes budget shallow := by
    obtain ⟨inner, rfl, -⟩ := depth_list_le_iff.mp shallow
    simp only [toList, List.forall_mem_cons] at survive
    obtain ⟨w, x, y, z, -⟩ := survive
    have parts : Quaternion.decode (inner + 1) q.toJson = do
      return ⟨← (ofFloat q.w).toFloat?, ← (ofFloat q.x).toFloat?, ← (ofFloat q.y).toFloat?,
        ← (ofFloat q.z).toFloat?⟩ := rfl
    rw [parts, w, x, y, z]
    rfl

/-! ### Actions -/

theorem Reference.recovers (reference : Reference) :
    Decoder.Recovers Reference.decode reference.toJson reference := by
  cases reference with
  | center => exact ⟨trivial, fun _ _ => rfl⟩
  | object id => exact (Decoder.recovers_text id).variant fun _ => rfl

theorem Rotation.recovers {rotation : Rotation Float}
    (survive : ∀ x ∈ rotation.numbers, Survives x) :
    Decoder.Recovers Rotation.decode rotation.toJson rotation := by
  cases rotation with
  | unchanged => exact Decoder.recovers_object (by simp) fun _ _ => rfl
  | axis around angle =>
    rw [numbers, List.forall_mem_append, List.forall_mem_singleton] at survive
    have first := Vec.recovers survive.1
    have second := Decoder.recovers_float survive.2
    refine Decoder.recovers_object (by simp [first.proper, second.proper])
      fun inner depths => ?_
    simp only [List.forall_mem_cons] at depths
    obtain ⟨-, axisDepth, angleDepth, -⟩ := depths
    have parts : Rotation.decode (inner + 1) (Rotation.axis around angle).toJson = do
      return .axis (← Vec.decode inner around.toJson) (← Decoder.float inner (ofFloat angle)) := rfl
    exact parts.trans (by rw [first.decodes inner axisDepth, second.decodes inner angleDepth]; rfl)
  | lookAt point up =>
    rw [numbers, List.forall_mem_append] at survive
    have first := Vec.recovers survive.1
    have second := Vec.recovers survive.2
    refine Decoder.recovers_object (by simp [first.proper, second.proper])
      fun inner depths => ?_
    simp only [List.forall_mem_cons] at depths
    obtain ⟨-, pointDepth, upDepth, -⟩ := depths
    have parts : Rotation.decode (inner + 1) (Rotation.lookAt point up).toJson = do
      return .lookAt (← Vec.decode inner point.toJson) (← Vec.decode inner up.toJson) := rfl
    exact parts.trans (by rw [first.decodes inner pointDepth, second.decodes inner upDepth]; rfl)
  | normal towards =>
    have recovered := Vec.recovers survive
    refine Decoder.recovers_object (by simp [recovered.proper]) fun inner depths => ?_
    simp only [List.forall_mem_cons] at depths
    have parts : Rotation.decode (inner + 1) (Rotation.normal towards).toJson = do
      return .normal (← Vec.decode inner towards.toJson) := rfl
    exact parts.trans (by rw [recovered.decodes inner depths.2.1]; rfl)

theorem Placement.recovers {placement : Placement Float}
    (survive : ∀ x ∈ placement.numbers, Survives x) :
    Decoder.Recovers Placement.decode placement.toJson placement := by
  obtain ⟨position?, reference, rotation⟩ := placement
  rw [numbers, List.forall_mem_append] at survive
  have second := reference.recovers
  have third := Rotation.recovers survive.2
  have assembled {json : Json}
      (first : Decoder.Recovers (Decoder.nullable Vec.decode) json position?) :
      Decoder.Recovers Placement.decode
        (.object [("position", json), ("relative_to", reference.toJson),
          ("rotation", rotation.toJson)]) ⟨position?, reference, rotation⟩ := by
    refine Decoder.recovers_object (by simp [first.proper, second.proper, third.proper])
      fun inner depths => ?_
    simp only [List.forall_mem_cons] at depths
    obtain ⟨positionDepth, referenceDepth, rotationDepth, -⟩ := depths
    have parts : Placement.decode (inner + 1) (.object [("position", json),
        ("relative_to", reference.toJson), ("rotation", rotation.toJson)]) = do
      return {
        position := ← Decoder.nullable Vec.decode inner json
        reference := ← Reference.decode inner reference.toJson
        rotation := ← Rotation.decode inner rotation.toJson } := rfl
    exact parts.trans (by rw [first.decodes inner positionDepth,
      second.decodes inner referenceDepth, third.decodes inner rotationDepth]; rfl)
  cases position? with
  | none => exact assembled Decoder.recovers_null
  | some position =>
    exact assembled ((Vec.recovers (by simpa using survive.1)).nullable (by simp [Vec.toJson]))

theorem SoundChange.recovers {change : SoundChange Float}
    (survive : ∀ x ∈ change.numbers, Survives x) :
    Decoder.Recovers SoundChange.decode change.toJson change := by
  cases change with
  | stop => exact ⟨trivial, fun _ _ => rfl⟩
  | start volume =>
    have recovered := Decoder.recovers_float (survive volume List.mem_cons_self)
    have content : Decoder.Recovers decodeVolume (.object [("volume", .ofFloat volume)])
        (.start volume) := by
      refine Decoder.recovers_object (by simp [recovered.proper]) fun inner depths => ?_
      simp only [List.forall_mem_cons] at depths
      have parts : decodeVolume (inner + 1) (.object [("volume", .ofFloat volume)]) = do
        return .start (← Decoder.float inner (ofFloat volume)) := rfl
      exact parts.trans (by rw [recovered.decodes inner depths.1]; rfl)
    refine Decoder.recovers_object (by simp [content.proper]) fun inner depths => ?_
    exact content.decodes inner (depths _ List.mem_cons_self)

namespace ActionKind

theorem isProper_toMembers {kind : ActionKind Float} (survive : ∀ x ∈ kind.numbers, Survives x) :
    ∀ member ∈ kind.toMembers, member.2.IsProper := by
  induction kind with
  | move placement relative => simp [toMembers, (Placement.recovers survive).proper]
  | sound name change => simp [toMembers, (SoundChange.recovers survive).proper]
  | group name action inductionHypothesis =>
    have inside := isProper_object.mpr (inductionHypothesis survive)
    simp only [toMembers, List.forall_mem_cons]
    exact ⟨trivial, trivial, inside, by simp⟩
  | _ => simp [toMembers]

/-- An action is found among the members that say it. The action inside may be read in any way that
agrees with the usual one where as many containers are left. -/
theorem ofTagged_toMembers {kind : ActionKind Float} (survive : ∀ x ∈ kind.numbers, Survives x)
    {budget : Nat} {inner : Decoder (ActionKind Float)} (same : inner budget = decode budget)
    (depths : ∀ member ∈ kind.toMembers, member.2.depth ≤ budget) :
    (Fields.tagged? ⟨budget, kind.toMembers⟩ true "kind" labels).bind (ofTagged inner) =
      some kind := by
  -- The action inside is read with one container less, so the claim is about every number of them.
  induction kind generalizing budget inner with
  | visibility visible | reset | triggerToggle name enabled => rfl
  | timeline name change => cases change <;> rfl
  | move placement relative =>
    simp only [toMembers, List.forall_mem_cons] at depths
    have parts : (Fields.tagged? ⟨budget, (move placement relative).toMembers⟩ true "kind"
        labels).bind (ofTagged inner) = do
      return .move (← Placement.decode budget placement.toJson) relative := rfl
    exact parts.trans (by rw [(Placement.recovers survive).decodes budget depths.2.1]; rfl)
  | sound name change =>
    simp only [toMembers, List.forall_mem_cons] at depths
    have parts : (Fields.tagged? ⟨budget, (sound name change).toMembers⟩ true "kind"
        labels).bind (ofTagged inner) = do
      return .sound name (← SoundChange.decode budget change.toJson) := rfl
    exact parts.trans (by rw [(SoundChange.recovers survive).decodes budget depths.2.2.1]; rfl)
  | group name action inductionHypothesis =>
    simp only [toMembers, List.forall_mem_cons] at depths
    obtain ⟨within, rfl, actionDepths⟩ := depth_object_le_iff.mp depths.2.2.1
    have parts : (Fields.tagged? ⟨within + 1, (group name action).toMembers⟩ true "kind"
        labels).bind (ofTagged inner) = do
      return .group name (← inner (within + 1) (.object action.toMembers)) := rfl
    have read : (Fields.tagged? ⟨within, action.toMembers⟩ true "kind" labels).bind
        (ofTagged fun _ => decode within) = some action :=
      inductionHypothesis survive rfl actionDepths
    have inside : decode (within + 1) (.object action.toMembers) = some action := read
    exact parts.trans (by rw [same, inside]; rfl)

/-- What an action and its entry in a timeline say of themselves, in front of the kind. -/
def frontNames : List String := ["start", "target", "duration"]

/-- No kind has a member of a name that may stand in front of it. -/
theorem ofTagged_behind {front members : List (String × Json)} {budget : Nat}
    {inner : Decoder (ActionKind Float)} (names : ∀ member ∈ front, member.1 ∈ frontNames) :
    (Fields.tagged? ⟨budget, front ++ members⟩ true "kind" labels).bind (ofTagged inner) =
      (Fields.tagged? ⟨budget, members⟩ true "kind" labels).bind (ofTagged inner) := by
  have other {name : String} (own : name ∉ frontNames) : ∀ member ∈ front, member.1 ≠ name := by
    rintro member isFront rfl
    exact own (names member isFront)
  have lookups {name : String} (own : name ∉ frontNames) :
      (front ++ members).lookup name = members.lookup name := lookup_behind (other own)
  have read (tag : String) : ofTagged inner ⟨tag, budget, .inr (front ++ members)⟩ =
      ofTagged inner ⟨tag, budget, .inr members⟩ := by
    simp only [ofTagged]
    split
    -- The last case is a tag of no kind.
    case h_8 => rfl
    all_goals
      refine bind_fields_behind (fun name isOwn => other ?_) ?_
      · revert name
        decide
      · simp (disch := decide) only [Fields.get, Fields.getOr, lookups]
  simp only [Fields.tagged?, filter_behind (other (by decide : "kind" ∉ frontNames))]
  split
  · rw [Option.bind_map, Option.bind_map]
    exact congrArg _ (funext read)
  · rfl

theorem nodup_toMembers (kind : ActionKind Float) :
    (frontNames ++ kind.toMembers.map Prod.fst).Nodup := by
  cases kind <;> simp [frontNames, toMembers]

end ActionKind

namespace Action

theorem recovers_target (target? : Option String) :
    Decoder.Recovers (Decoder.nullable Decoder.text)
      (match target? with | some target => .text target | none => .null) target? := by
  cases target? with
  | none => exact Decoder.recovers_null
  | some target => exact (Decoder.recovers_text target).nullable (by simp)

theorem isProper_toMembers {action : Action Float} (survive : ∀ x ∈ action.numbers, Survives x) :
    ∀ member ∈ action.toMembers, member.2.IsProper := by
  obtain ⟨durationSurvives, kindSurvive⟩ := List.forall_mem_cons.mp survive
  rw [toMembers, List.forall_mem_append, List.forall_mem_cons, List.forall_mem_singleton]
  exact ⟨⟨(recovers_target action.target).proper, durationSurvives.isProper⟩,
    ActionKind.isProper_toMembers kindSurvive⟩

theorem nodup_toMembers (action : Action Float) :
    ("start" :: action.toMembers.map Prod.fst).Nodup :=
  ActionKind.nodup_toMembers action.kind

/-- An action is found among its members, also behind the start of its entry. -/
theorem ofFields_toMembers {action : Action Float} (survive : ∀ x ∈ action.numbers, Survives x)
    (front : List (String × Json)) (names : (front.map Prod.fst).Sublist ["start"]) {budget : Nat}
    (depths : ∀ member ∈ action.toMembers, member.2.depth ≤ budget) :
    ofFields ⟨budget, front ++ action.toMembers⟩ = some action := by
  obtain ⟨durationSurvives, kindSurvive⟩ := List.forall_mem_cons.mp survive
  have starts : ∀ member ∈ front, member.1 = "start" := fun member isFront =>
    List.mem_singleton.mp (names.subset (List.mem_map_of_mem isFront))
  have distinct : Fields.distinct? ⟨budget, front ++ action.toMembers⟩ ["target", "duration"] =
      some ⟨budget, front ++ action.toMembers⟩ := by
    refine Fields.distinct?_of_nodup _ ?_ _
    rw [List.map_append]
    exact (nodup_toMembers action).sublist (names.append_right _)
  rw [toMembers, List.forall_mem_append, List.forall_mem_cons, List.forall_mem_singleton] at depths
  obtain ⟨⟨targetDepth, durationDepth⟩, kindDepths⟩ := depths
  have target : Fields.getOr ⟨budget, front ++ action.toMembers⟩ "target" none
      (Decoder.nullable Decoder.text) = some action.target := by
    rw [Fields.getOr, lookup_behind fun member isFront => by simp [starts member isFront]]
    exact (recovers_target action.target).decodes budget targetDepth
  have duration : Fields.getOr ⟨budget, front ++ action.toMembers⟩ "duration" 0 Decoder.float =
      some action.duration := by
    rw [Fields.getOr, lookup_behind fun member isFront => by simp [starts member isFront]]
    exact durationSurvives
  have kind : (Fields.tagged? ⟨budget, front ++ action.toMembers⟩ true "kind"
      ActionKind.labels).bind (ActionKind.ofTagged ActionKind.decode) = some action.kind := by
    rw [toMembers, ← List.append_assoc, ActionKind.ofTagged_behind,
      ActionKind.ofTagged_toMembers kindSurvive rfl kindDepths]
    rw [List.forall_mem_append, List.forall_mem_cons, List.forall_mem_singleton]
    refine ⟨fun member isFront => ?_, ?_, ?_⟩
    · rw [starts member isFront]
      decide
    · simp [ActionKind.frontNames]
    · simp [ActionKind.frontNames]
  simp only [ofFields, distinct, target, duration, kind, Option.bind_eq_bind, Option.bind_some]
  rfl

theorem recovers {action : Action Float} (survive : ∀ x ∈ action.numbers, Survives x) :
    Decoder.Recovers decode action.toJson action := by
  have proper := isProper_toMembers survive
  refine Decoder.recovers_object proper fun inner depths => ?_
  have parts : decode (inner + 1) action.toJson =
      if Fields.areReadableBut ⟨inner, action.toMembers⟩ ["target", "duration"] then
        ofFields ⟨inner, action.toMembers⟩
      else none := rfl
  exact parts.trans (by
    rw [if_pos (Fields.areReadableBut_of_isProper _ proper depths _)]
    exact ofFields_toMembers survive [] (List.nil_sublist _) depths)

end Action

/-! ### Timelines -/

theorem TimedAction.recovers {entry : TimedAction Float}
    (survive : ∀ x ∈ entry.numbers, Survives x) :
    Decoder.Recovers decode entry.toJson entry := by
  obtain ⟨startSurvives, actionSurvive⟩ := List.forall_mem_cons.mp survive
  have proper : ∀ member ∈ ("start", ofFloat entry.start) :: entry.action.toMembers,
      member.2.IsProper :=
    List.forall_mem_cons.mpr ⟨startSurvives.isProper, Action.isProper_toMembers actionSurvive⟩
  refine Decoder.recovers_object proper fun inner depths => ?_
  have readable := Fields.areReadableBut_of_isProper ⟨inner, _⟩ proper depths ["start"]
  have distinct := Fields.distinct?_of_nodup
    ⟨inner, ("start", ofFloat entry.start) :: entry.action.toMembers⟩
    (Action.nodup_toMembers entry.action) ["start"]
  have action := Action.ofFields_toMembers actionSurvive [("start", ofFloat entry.start)]
    (List.Sublist.refl _) (List.forall_mem_cons.mp depths).2
  rw [List.singleton_append] at action
  have start : Fields.get ⟨inner, ("start", ofFloat entry.start) :: entry.action.toMembers⟩ "start"
      Decoder.float = some entry.start := startSurvives
  simp only [decode, object?, distinct, start, readable, action, Option.bind_eq_bind,
    Option.bind_some, if_true]
  rfl

theorem Timeline.recovers {timeline : Timeline Float}
    (survive : ∀ x ∈ timeline.numbers, Survives x) :
    Decoder.Recovers decode timeline.toJson timeline := by
  have third : Decoder.Recovers _ _ timeline.entries := Decoder.recovers_list fun entry member =>
    TimedAction.recovers fun x inside => survive x (List.mem_flatMap_of_mem member inside)
  refine Decoder.recovers_object (by simp [third.proper]) fun inner depths => ?_
  simp only [List.forall_mem_cons] at depths
  have parts : decode (inner + 1) timeline.toJson = do
    return {
      name := timeline.name
      autostart := timeline.autostart
      entries := ← Decoder.list TimedAction.decode inner
        (.list (timeline.entries.map TimedAction.toJson)) } := rfl
  exact parts.trans (by rw [third.decodes inner depths.2.2.1]; rfl)

/-! ### Triggers -/

theorem Subject.recovers (subject : Subject) : Decoder.Recovers decode subject.toJson subject := by
  cases subject with
  | head => exact ⟨trivial, fun _ _ => rfl⟩
  | object id => exact (Decoder.recovers_text id).variant fun _ => rfl

theorem Crossing.recovers (crossing : Crossing) :
    Decoder.Recovers decode crossing.toJson crossing := by
  cases crossing <;> exact ⟨trivial, fun _ _ => rfl⟩

theorem Anchor.recovers {anchor : Anchor Float} (survive : ∀ x ∈ anchor.numbers, Survives x) :
    Decoder.Recovers decode anchor.toJson anchor := by
  cases anchor with
  | object id => exact (Decoder.recovers_text id).variant fun _ => rfl
  | point position => exact (Vec.recovers survive).variant fun _ => rfl

theorem LookTarget.recovers {target : LookTarget Float}
    (survive : ∀ x ∈ target.numbers, Survives x) :
    Decoder.Recovers decode target.toJson target := by
  cases target with
  | object id => exact (Decoder.recovers_text id).variant fun _ => rfl
  | point position => exact (Vec.recovers survive).variant fun _ => rfl
  | direction towards => exact (Vec.recovers survive).variant fun _ => rfl

namespace Condition

/-- Proper members that say their kind and what the kind needs are a condition. -/
theorem recovers_of_ofTagged {members : List (String × Json)} {condition : Condition Float}
    (proper : ∀ member ∈ members, member.2.IsProper)
    (tagged : ∀ budget, Fields.tagged? ⟨budget, members⟩ false "kind" labels =
      some ⟨condition.label, budget, .inr members⟩)
    (decodes : ∀ budget, (∀ member ∈ members, member.2.depth ≤ budget) →
      ofTagged ⟨condition.label, budget, .inr members⟩ = some condition) :
    Decoder.Recovers decode (.object members) condition := by
  refine Decoder.recovers_object proper fun inner depths => ?_
  have readable : areReadableMembers inner members = true :=
    areReadableMembers_of_areProperMembers members inner (isProper_object.mpr proper)
      (depthMembers_le_iff.mpr depths)
  have parts : decode (inner + 1) (.object members) =
      (Fields.tagged? ⟨inner, members⟩ false "kind" labels).bind fun tagged =>
        if tagged.parts.areReadable then ofTagged tagged else none := rfl
  rw [parts, tagged, Option.bind_some]
  exact (if_pos readable).trans (decodes inner depths)

theorem recovers_orientation (subject : Subject) {direction : Vec Float} {angle : Float}
    (survive : ∀ x ∈ (orientation subject direction angle).numbers, Survives x) :
    Decoder.Recovers decode (orientation subject direction angle).toJson
      (orientation subject direction angle) := by
  rw [numbers, List.forall_mem_append, List.forall_mem_singleton] at survive
  have first := subject.recovers
  have second := Vec.recovers survive.1
  have third := Decoder.recovers_float survive.2
  refine recovers_of_ofTagged (by simp [first.proper, second.proper, third.proper])
    (fun _ => rfl) fun budget depths => ?_
  simp only [List.forall_mem_cons] at depths
  obtain ⟨-, subjectDepth, directionDepth, angleDepth, -⟩ := depths
  have parts : ofTagged ⟨"orientation", budget, .inr [("kind", .text "orientation"),
      ("subject", subject.toJson), ("direction", direction.toJson),
      ("angle", ofFloat angle)]⟩ = do
    return .orientation (← Subject.decode budget subject.toJson)
      (← Vec.decode budget direction.toJson) (← Decoder.float budget (ofFloat angle)) := rfl
  exact parts.trans (by rw [first.decodes budget subjectDepth,
    second.decodes budget directionDepth, third.decodes budget angleDepth]; rfl)

theorem recovers_proximity (subject : Subject) {anchor : Anchor Float} {distance : Float}
    (survive : ∀ x ∈ (proximity subject anchor distance).numbers, Survives x) :
    Decoder.Recovers decode (proximity subject anchor distance).toJson
      (proximity subject anchor distance) := by
  rw [numbers, List.forall_mem_append, List.forall_mem_singleton] at survive
  have first := subject.recovers
  have second := Anchor.recovers survive.1
  have third := Decoder.recovers_float survive.2
  refine recovers_of_ofTagged (by simp [first.proper, second.proper, third.proper])
    (fun _ => rfl) fun budget depths => ?_
  simp only [List.forall_mem_cons] at depths
  obtain ⟨-, subjectDepth, anchorDepth, distanceDepth, -⟩ := depths
  have parts : ofTagged ⟨"proximity", budget, .inr [("kind", .text "proximity"),
      ("subject", subject.toJson), ("anchor", anchor.toJson),
      ("distance", ofFloat distance)]⟩ = do
    return .proximity (← Subject.decode budget subject.toJson)
      (← Anchor.decode budget anchor.toJson) (← Decoder.float budget (ofFloat distance)) := rfl
  exact parts.trans (by rw [first.decodes budget subjectDepth,
    second.decodes budget anchorDepth, third.decodes budget distanceDepth]; rfl)

theorem recovers_lookAt {target : LookTarget Float} {angle : Float}
    (survive : ∀ x ∈ (lookAt target angle).numbers, Survives x) :
    Decoder.Recovers decode (lookAt target angle).toJson (lookAt target angle) := by
  rw [numbers, List.forall_mem_append, List.forall_mem_singleton] at survive
  have first := LookTarget.recovers survive.1
  have second := Decoder.recovers_float survive.2
  refine recovers_of_ofTagged (by simp [first.proper, second.proper]) (fun _ => rfl)
    fun budget depths => ?_
  simp only [List.forall_mem_cons] at depths
  obtain ⟨-, targetDepth, angleDepth, -⟩ := depths
  have parts : ofTagged ⟨"look_at", budget, .inr [("kind", .text "look_at"),
      ("target", target.toJson), ("angle", ofFloat angle)]⟩ = do
    return .lookAt (← LookTarget.decode budget target.toJson)
      (← Decoder.float budget (ofFloat angle)) := rfl
  exact parts.trans (by rw [first.decodes budget targetDepth,
    second.decodes budget angleDepth]; rfl)

theorem recovers_movement (subject : Subject) {distance : Float}
    (survive : ∀ x ∈ (movement subject distance).numbers, Survives x) :
    Decoder.Recovers decode (movement subject distance).toJson (movement subject distance) := by
  have first := subject.recovers
  have second := Decoder.recovers_float (List.forall_mem_singleton.mp survive)
  refine recovers_of_ofTagged (by simp [first.proper, second.proper]) (fun _ => rfl)
    fun budget depths => ?_
  simp only [List.forall_mem_cons] at depths
  obtain ⟨-, subjectDepth, distanceDepth, -⟩ := depths
  have parts : ofTagged ⟨"movement", budget, .inr [("kind", .text "movement"),
      ("subject", subject.toJson), ("distance", ofFloat distance)]⟩ = do
    return .movement (← Subject.decode budget subject.toJson)
      (← Decoder.float budget (ofFloat distance)) := rfl
  exact parts.trans (by rw [first.decodes budget subjectDepth,
    second.decodes budget distanceDepth]; rfl)

theorem recovers_volume (subject : Subject) {least greatest : Vec Float} (crossing : Crossing)
    (survive : ∀ x ∈ (volume subject least greatest crossing).numbers, Survives x) :
    Decoder.Recovers decode (volume subject least greatest crossing).toJson
      (volume subject least greatest crossing) := by
  rw [numbers, List.forall_mem_append] at survive
  have first := subject.recovers
  have second := Vec.recovers survive.1
  have third := Vec.recovers survive.2
  have fourth := crossing.recovers
  refine recovers_of_ofTagged
    (by simp [first.proper, second.proper, third.proper, fourth.proper])
    (fun _ => rfl) fun budget depths => ?_
  simp only [List.forall_mem_cons] at depths
  obtain ⟨-, subjectDepth, leastDepth, greatestDepth, crossingDepth, -⟩ := depths
  have parts : ofTagged ⟨"volume", budget, .inr [("kind", .text "volume"),
      ("subject", subject.toJson), ("min", least.toJson), ("max", greatest.toJson),
      ("edge", crossing.toJson)]⟩ = do
    return .volume (← Subject.decode budget subject.toJson) (← Vec.decode budget least.toJson)
      (← Vec.decode budget greatest.toJson) (← Crossing.decode budget crossing.toJson) := rfl
  exact parts.trans (by rw [first.decodes budget subjectDepth,
    second.decodes budget leastDepth, third.decodes budget greatestDepth,
    fourth.decodes budget crossingDepth]; rfl)

theorem recovers {condition : Condition Float} (survive : ∀ x ∈ condition.numbers, Survives x) :
    Decoder.Recovers decode condition.toJson condition := by
  cases condition with
  | orientation subject => exact recovers_orientation subject survive
  | proximity subject => exact recovers_proximity subject survive
  | lookAt => exact recovers_lookAt survive
  | movement subject => exact recovers_movement subject survive
  | volume subject _ _ crossing => exact recovers_volume subject crossing survive

end Condition

theorem Trigger.recovers {trigger : Trigger Float} (survive : ∀ x ∈ trigger.numbers, Survives x) :
    Decoder.Recovers decode trigger.toJson trigger := by
  rw [numbers, List.forall_mem_append, List.forall_mem_append, List.forall_mem_singleton] at survive
  obtain ⟨⟨conditionSurvive, actionsSurvive⟩, epsilonSurvives⟩ := survive
  have condition := Condition.recovers conditionSurvive
  have actions : Decoder.Recovers _ _ trigger.actions := Decoder.recovers_list fun action member =>
    Action.recovers fun x inside => actionsSurvive x (List.mem_flatMap_of_mem member inside)
  have epsilon := Decoder.recovers_float epsilonSurvives
  refine Decoder.recovers_object (by simp [condition.proper, actions.proper, epsilon.proper])
    fun inner depths => ?_
  simp only [List.forall_mem_cons] at depths
  obtain ⟨-, conditionDepth, actionsDepth, -, -, epsilonDepth, -⟩ := depths
  have parts : decode (inner + 1) trigger.toJson = do
    return {
      name := trigger.name
      condition := ← Condition.decode inner trigger.condition.toJson
      actions := ← Decoder.list Action.decode inner (.list (trigger.actions.map Action.toJson))
      remain := trigger.remain
      enabled := trigger.enabled
      epsilon := ← Decoder.float inner (ofFloat trigger.epsilon) } := rfl
  exact parts.trans (by rw [condition.decodes inner conditionDepth,
    actions.decodes inner actionsDepth, epsilon.decodes inner epsilonDepth]; rfl)

/-! ### Objects and groups -/

theorem Group.recovers (group : Group) : Decoder.Recovers decode group.toJson group := by
  have objects : Decoder.Recovers _ _ group.objects :=
    Decoder.recovers_list fun name _ => Decoder.recovers_text name
  have groups : Decoder.Recovers _ _ group.groups :=
    Decoder.recovers_list fun name _ => Decoder.recovers_text name
  refine Decoder.recovers_object (by simp [objects.proper, groups.proper]) fun inner depths => ?_
  simp only [List.forall_mem_cons] at depths
  obtain ⟨-, objectsDepth, groupsDepth, -⟩ := depths
  have parts : decode (inner + 1) group.toJson = do
    return {
      name := group.name
      objects := ← Decoder.list Decoder.text inner (.list (group.objects.map Json.text))
      groups := ← Decoder.list Decoder.text inner (.list (group.groups.map Json.text)) } := rfl
  exact parts.trans (by rw [objects.decodes inner objectsDepth,
    groups.decodes inner groupsDepth]; rfl)

namespace SceneObject

theorem allToJson_eq_map (objects : List (SceneObject Float)) :
    allToJson objects = objects.map toJson := by
  induction objects with
  | nil => rfl
  | cons object rest inductionHypothesis => rw [allToJson, inductionHypothesis, List.map_cons]

/-- The children are decoded two containers further in, all else of an object one. -/
theorem decode_members (within : Nat) (id : String) (visible : Bool)
    (position orientation triggers timelines actions : Json) (children : List Json) :
    decode (within + 1 + 1) (.object [("id", .text id), ("position", position),
        ("orientation", orientation), ("visible", .bool visible), ("triggers", triggers),
        ("timelines", timelines), ("actions", actions), ("children", .list children)]) = (do
      let children ← children.mapM (decode within)
      return {
        id := id
        position := ← Vec.decode (within + 1) position
        orientation := ← Quaternion.decode (within + 1) orientation
        visible := visible
        triggers := ← Decoder.list Trigger.decode (within + 1) triggers
        timelines := ← Decoder.list Timeline.decode (within + 1) timelines
        linkActions := ← Decoder.list Action.decode (within + 1) actions
        children }) := by
  delta decode
  rfl

/-- An object is recovered if its children are. -/
theorem recovers_of_children {object : SceneObject Float}
    (survive : ∀ x ∈ object.numbers, Survives x)
    (recovered : ∀ child ∈ object.children, Decoder.Recovers decode child.toJson child) :
    Decoder.Recovers decode object.toJson object := by
  obtain ⟨id, position, orientation, visible, triggers, timelines, linkActions, children⟩ := object
  simp only [numbers, List.forall_mem_append] at survive
  obtain ⟨⟨⟨⟨positionSurvive, orientationSurvive⟩, triggersSurvive⟩, timelinesSurvive⟩,
    actionsSurvive⟩ := survive
  have first := Vec.recovers positionSurvive
  have second := Quaternion.recovers orientationSurvive
  have third : Decoder.Recovers _ _ triggers := Decoder.recovers_list fun trigger member =>
    Trigger.recovers fun x inside => triggersSurvive x (List.mem_flatMap_of_mem member inside)
  have fourth : Decoder.Recovers _ _ timelines := Decoder.recovers_list fun timeline member =>
    Timeline.recovers fun x inside => timelinesSurvive x (List.mem_flatMap_of_mem member inside)
  have fifth : Decoder.Recovers _ _ linkActions := Decoder.recovers_list fun action member =>
    Action.recovers fun x inside => actionsSurvive x (List.mem_flatMap_of_mem member inside)
  have sixth : Decoder.Recovers _ _ children := Decoder.recovers_list recovered
  rw [toJson, allToJson_eq_map]
  refine Decoder.recovers_object (by simp [first.proper, second.proper, third.proper,
    fourth.proper, fifth.proper, sixth.proper]) fun inner depths => ?_
  simp only [List.forall_mem_cons] at depths
  obtain ⟨-, positionDepth, orientationDepth, -, triggersDepth, timelinesDepth, actionsDepth,
    childrenDepth, -⟩ := depths
  obtain ⟨within, rfl, childDepths⟩ := depth_list_le_iff.mp childrenDepth
  have childrenRead : (children.map toJson).mapM (decode within) = some children :=
    Decoder.mapM_map fun child member =>
      (recovered child member).decodes within (childDepths _ (List.mem_map_of_mem member))
  exact (decode_members ..).trans (by rw [childrenRead, first.decodes _ positionDepth,
    second.decodes _ orientationDepth, third.decodes _ triggersDepth,
    fourth.decodes _ timelinesDepth, fifth.decodes _ actionsDepth]; rfl)

mutual

theorem recovers : (object : SceneObject Float) →
    (∀ x ∈ object.preorder.flatMap numbers, Survives x) →
    Decoder.Recovers decode object.toJson object
  | ⟨id, position, orientation, visible, triggers, timelines, linkActions, children⟩ =>
    fun survive => by
      rw [preorder, List.flatMap_cons, List.forall_mem_append] at survive
      exact recovers_of_children survive.1 (recoversAll children survive.2)

theorem recoversAll : (objects : List (SceneObject Float)) →
    (∀ x ∈ (preorderAll objects).flatMap numbers, Survives x) →
    ∀ object ∈ objects, Decoder.Recovers decode object.toJson object
  | [] => fun _ _ member => by cases member
  | first :: rest => fun survive => by
    rw [preorderAll, List.flatMap_append, List.forall_mem_append] at survive
    exact List.forall_mem_cons.mpr ⟨recovers first survive.1, recoversAll rest survive.2⟩

end

end SceneObject

namespace Scene

theorem recovers {scene : Scene Float} (survive : ∀ x ∈ scene.numbers, Survives x) :
    Decoder.Recovers decode scene.toJson scene := by
  have objects : Decoder.Recovers _ _ scene.objects :=
    Decoder.recovers_list (SceneObject.recoversAll scene.objects survive)
  have groups : Decoder.Recovers _ _ scene.groups :=
    Decoder.recovers_list fun group _ => group.recovers
  refine Decoder.recovers_object (by simp [objects.proper, groups.proper]) fun inner depths => ?_
  simp only [List.forall_mem_cons] at depths
  obtain ⟨objectsDepth, groupsDepth, -⟩ := depths
  have parts : decode (inner + 1) scene.toJson = do
    return {
      objects := ← Decoder.list SceneObject.decode inner
        (.list (scene.objects.map SceneObject.toJson))
      groups := ← Decoder.list Group.decode inner (.list (scene.groups.map Group.toJson)) } := rfl
  exact parts.trans (by rw [objects.decodes inner objectsDepth,
    groups.decodes inner groupsDepth]; rfl)

/-- A written scene reads back, if its numbers do and it is not nested too deeply. -/
theorem parse_write {scene : Scene Float} (survive : ∀ x ∈ scene.numbers, Survives x)
    (shallow : scene.toJson.depth ≤ nestingLimit) : parse? scene.write = some scene := by
  have recovered := recovers survive
  rw [parse?, write, parse_compact recovered.proper, Option.bind_some, ofJson?,
    recovered.decodes nestingLimit shallow]

/-- A lantern in a shop, with a name that has to be escaped and actions inside actions. -/
def shop : Scene Float where
  objects := [
    { id := "shop"
      position := ⟨0, 0, 0⟩
      orientation := ⟨1, 0, 0, 0⟩
      visible := true
      triggers := [{
        name := "look \"up\""
        condition := .lookAt (.direction ⟨0, 1, 0⟩) 22.5
        actions := [⟨some "été\n光", 0.1, .move ⟨none, .object "shop", .axis ⟨0, 1, 0⟩ (-90)⟩ true⟩]
        remain := true
        enabled := false
        epsilon := 1e-7 }]
      timelines := []
      linkActions := []
      children := [
        { id := "été\n光"
          position := ⟨0.5, 1e21, -0.25⟩
          orientation := ⟨0, 0, 1, 0⟩
          visible := false
          triggers := []
          timelines := [{
            name := "closing"
            autostart := true
            entries := [
              ⟨1.5, none, 0, .group "signs" (.group "lights" (.sound "click" .stop))⟩] }]
          linkActions := [⟨none, 0, .timeline "closing" .startIfNotStarted⟩]
          children := [] }] }]
  groups := [⟨"signs", [], ["lights"]⟩, ⟨"lights", ["été\n光"], []⟩]

theorem parse_write_shop :
    (∀ x ∈ shop.numbers, Survives x) ∧ shop.toJson.depth ≤ nestingLimit ∧
      parse? shop.write = some shop :=
  have survive : ∀ x ∈ shop.numbers, Survives x := by decide +kernel
  have shallow : shop.toJson.depth ≤ nestingLimit := by decide +kernel
  ⟨survive, shallow, parse_write survive shallow⟩

end Scene

end Stagecraft
