import TibiaGame.ObjectKinds

/-!
# Timers and objects agree

An object that can expire has one entry in the cron store, and nothing else has
any. The property needs no assumption on how the objects lie in each other: it
survives every map call that returns, with any arguments.
-/

namespace TibiaGame.CronAgreement

open GameTypes CronModel CronInvariant CronOperations CronRuns ObjectStore ObjectOperations
open ObjectKinds Library.Outcome

variable {cfg : GameConfig} {world after : World cfg} {obj other : Object}

def timers (cron : CronStore) (obj : Object) : Nat :=
  (scheduled cron).countP fun entry => entry.1 = obj

def expires (table : Nat → CellKind cfg) (obj : Object) : Bool :=
  match typeOf table obj with
  | some type => type.getFlag .expire
  | none => false

structure Agreement (world : World cfg) : Prop where
  wellFormed : WellFormed world.cron
  permanent : kinds world 0 = .permanent
  agree : ∀ obj, timers world.cron obj = if expires (kinds world) obj then 1 else 0

/-- Agreement everywhere but at `obj`, which has `count` timers. -/
structure Disagreement (world : World cfg) (obj : Object) (count : Nat) : Prop where
  wellFormed : WellFormed world.cron
  permanent : kinds world 0 = .permanent
  here : timers world.cron obj = count
  agree : ∀ other, other ≠ obj →
    timers world.cron other = if expires (kinds world) other then 1 else 0

theorem Agreement.quiet (agreement : Agreement world) (quiet : Quiet world after) :
    Agreement after where
  wellFormed := by
    rw [quiet.cron]
    exact agreement.wellFormed
  permanent := by
    rw [quiet.table]
    exact agreement.permanent
  agree := by
    intro obj
    rw [quiet.cron, quiet.table]
    exact agreement.agree obj

theorem Disagreement.quiet {count : Nat} (disagreement : Disagreement world obj count)
    (quiet : Quiet world after) : Disagreement after obj count where
  wellFormed := by
    rw [quiet.cron]
    exact disagreement.wellFormed
  permanent := by
    rw [quiet.table]
    exact disagreement.permanent
  here := by
    rw [quiet.cron]
    exact disagreement.here
  agree := by
    intro other different
    rw [quiet.cron, quiet.table]
    exact disagreement.agree other different

theorem Agreement.at (agreement : Agreement world) (obj : Object) :
    Disagreement world obj (if expires (kinds world) obj then 1 else 0) where
  wellFormed := agreement.wellFormed
  permanent := agreement.permanent
  here := agreement.agree obj
  agree := fun other _ => agreement.agree other

theorem Disagreement.settle {count : Nat} (disagreement : Disagreement world obj count)
    (settled : count = if expires (kinds world) obj then 1 else 0) : Agreement world where
  wellFormed := disagreement.wellFormed
  permanent := disagreement.permanent
  agree := by
    intro other
    by_cases same : other = obj
    · rw [same, disagreement.here, settled]
    · exact disagreement.agree other same

theorem expires_of_type {table : Nat → CellKind cfg} {type : ObjectType cfg}
    (typed : typeOf table obj = some type) : expires table obj = type.getFlag .expire := by
  simp [expires, typed]

theorem expires_none {table : Nat → CellKind cfg} (untyped : typeOf table obj = none) :
    expires table obj = false := by
  simp [expires, untyped]

theorem expires_congr {left right : Nat → CellKind cfg}
    (same : typeOf left obj = typeOf right obj) : expires left obj = expires right obj := by
  unfold expires
  rw [same]

theorem initial_agreement (cfg : GameConfig) : Agreement (initialWorld cfg) where
  wellFormed := empty_well_formed
  permanent := by simp [kinds, initialWorld, permanentTable, cellKind]
  agree := by
    intro obj
    have untyped : typeOf (kinds (initialWorld cfg)) obj = none := by
      apply Option.eq_none_iff_forall_ne_some.mpr
      intro type typed
      have loaded := (type_of_kind.mp typed).2
      simp only [kinds, initialWorld, permanentTable, Function.update_apply] at loaded
      split_ifs at loaded <;> cases loaded
    rw [expires_none untyped]
    rfl

theorem timers_cons {cron cron' : CronStore} {due : UInt32}
    (split : scheduled cron' = (obj, due) ::ₘ scheduled cron) (other : Object) :
    timers cron' other = timers cron other + if other = obj then 1 else 0 := by
  unfold timers
  rw [split, Multiset.countP_cons]
  by_cases same : obj = other
  · simp [same]
  · simp [same, Ne.symm same]

theorem timers_zero {cron : CronStore} (nobody : ∀ due, (obj, due) ∉ scheduled cron) :
    timers cron obj = 0 := by
  apply Multiset.countP_eq_zero.mpr
  rintro ⟨found, due⟩ member same
  have isObj : found = obj := by simpa using same
  exact nobody due (isObj ▸ member)

theorem stop_disagreement {count : Nat} (disagreement : Disagreement world obj count)
    (isLive : objectExists world obj = true) {remaining : UInt32}
    (stopped : cronStop world obj = .ok (remaining, after)) :
    Disagreement after obj (count - 1) ∧ kinds after = kinds world := by
  rw [cron_stop_eq] at stopped
  obtain ⟨found, cron, returned, kept, effect⟩ :=
    cron_info_spec disagreement.wellFormed obj true
  rw [stopped] at returned
  cases returned
  have counted : timers cron obj = count - 1 ∧
      ∀ other, other ≠ obj → timers cron other = timers world.cron other := by
    rcases effect with ⟨rfl, nobody⟩ | ⟨due, _, split⟩
    · have none_here := timers_zero (nobody rfl isLive)
      have := disagreement.here
      exact ⟨by omega, fun _ _ => rfl⟩
    have hereCount := timers_cons split obj
    rw [disagreement.here, if_pos rfl] at hereCount
    refine ⟨by omega, ?_⟩
    intro other different
    rw [timers_cons split other, if_neg different, Nat.add_zero]
  refine ⟨⟨kept, disagreement.permanent, counted.1, ?_⟩, rfl⟩
  intro other different
  exact (counted.2 other different).trans (disagreement.agree other different)

theorem expire_disagreement {count : Nat} (disagreement : Disagreement world obj count)
    (isLive : objectExists world obj = true) (delay : Int32) :
    Disagreement (cronExpire world obj delay) obj
        (count + if (getObjectType world obj).getFlag .expire then 1 else 0) ∧
      kinds (cronExpire world obj delay) = kinds world := by
  rw [cron_expire_eq]
  by_cases timed : (getObjectType world obj).getFlag .expire = true
  · rw [if_pos ⟨isLive, timed⟩, if_pos timed]
    obtain ⟨kept, _, split⟩ := cron_set_spec disagreement.wellFormed obj
      (world.roundNr + expireDelay (getObjectType world obj) delay)
    refine ⟨⟨kept, disagreement.permanent, ?_, ?_⟩, rfl⟩
    · rw [timers_cons split, if_pos rfl, disagreement.here]
    · intro other different
      rw [timers_cons split, if_neg different, Nat.add_zero]
      exact disagreement.agree other different
  rw [if_neg (fun both => timed both.2), if_neg timed]
  exact ⟨disagreement, rfl⟩

theorem create_agreement (agreement : Agreement world)
    (created : createObject world = .ok (obj, after)) :
    Agreement after ∧ typeOf (kinds after) obj = some default := by
  obtain ⟨isFree, table, cron, _, _⟩ := create_kinds created
  have notNone : obj ≠ NONE := by
    rintro rfl
    rw [show entryIndex cfg NONE.objectID = 0 from Nat.zero_mod _, agreement.permanent] at isFree
    cases isFree
  have own := own_entry_of_free isFree
  have dead : typeOf (kinds world) obj = none := by
    unfold typeOf
    rw [isFree]
    split_ifs <;> rfl
  refine ⟨⟨?_, ?_, ?_⟩, ?_⟩
  · rw [cron]
    exact agreement.wellFormed
  · rw [table, Function.update_of_ne]
    · exact agreement.permanent
    · intro same
      rw [← same, agreement.permanent] at isFree
      cases isFree
  · intro other
    rw [cron, agreement.agree other, table]
    by_cases same : other = obj
    · have born := type_of_update own notNone default obj
      rw [if_pos rfl] at born
      have lasts : (default : ObjectType cfg).getFlag .expire = false := cfg.mapContainer_lasts
      rw [same, expires_none dead, expires_of_type born, lasts]
    have kept := type_of_update own notNone default other
    rw [if_neg same] at kept
    rw [expires_congr kept]
  · rw [table, type_of_update own notNone, if_pos rfl]

theorem release_agreement (disagreement : Disagreement world obj 0)
    (own : OwnEntry (kinds world) obj) :
    Agreement (releaseObject world obj) ∧ typeOf (kinds (releaseObject world obj)) obj = none := by
  obtain ⟨table, cron, _⟩ := release_kinds world obj
  have freed : ∀ other, typeOf (kinds (releaseObject world obj)) other =
      if other = obj then none else typeOf (kinds world) other := by
    intro other
    rw [table]
    cases kind : kinds world (entryIndex cfg obj.objectID) with
    | free =>
      split_ifs with same
      · rw [same]
        simp [typeOf, kind]
      · rfl
    | permanent =>
      split_ifs with same
      · rw [same]
        simp [typeOf, kind]
      · rfl
    | loaded objectID type => exact type_of_freed own other
  refine ⟨⟨?_, ?_, ?_⟩, by rw [freed, if_pos rfl]⟩
  · rw [cron]
    exact disagreement.wellFormed
  · rw [table]
    cases kind : kinds world (entryIndex cfg obj.objectID) with
    | free => exact disagreement.permanent
    | permanent => exact disagreement.permanent
    | loaded objectID type =>
      have elsewhere : 0 ≠ entryIndex cfg obj.objectID := by
        intro same
        rw [← same, disagreement.permanent] at kind
        cases kind
      exact (Function.update_of_ne elsewhere _ _).trans disagreement.permanent
  · intro other
    rw [cron]
    by_cases same : other = obj
    · rw [same, expires_none (by rw [freed, if_pos rfl])]
      exact disagreement.here
    have kept := freed other
    rw [if_neg same] at kept
    rw [disagreement.agree other same, expires_congr kept]

/-- The end of `DestroyObject`, whatever the loop over the content has done to the object. -/
theorem destroy_end {type : ObjectType cfg} {start : World cfg} {remaining : UInt32}
    {stopped : World cfg} (typed : typeOf (kinds start) obj = some type)
    (shrunk : Shrunk start world) (agreement : Agreement world)
    (timer : (if type.getFlag .expire then cronStop world obj else .ok (0, world)) =
      .ok (remaining, stopped)) :
    Agreement (releaseObject stopped obj) ∧
      typeOf (kinds (releaseObject stopped obj)) obj = none := by
  have own : OwnEntry (kinds world) obj := by
    rcases shrunk.table (entryIndex cfg obj.objectID) with ⟨gone, _⟩ | kept
    · exact own_entry_of_free gone
    intro objectID found loaded
    rw [kept] at loaded
    exact own_entry_of_type typed objectID found loaded
  have settled : Disagreement stopped obj 0 ∧ kinds stopped = kinds world := by
    rcases shrunk.type obj with gone | kept
    · have dead : objectExists world obj ≠ true := by
        rw [ne_eq, exists_iff_type, gone]
        exact Bool.false_ne_true
      have nothing := agreement.at obj
      rw [expires_none gone] at nothing
      have idle : cronStop world obj = .ok (0, world) := by
        rw [cronStop, if_neg dead]
      rw [idle, ite_self] at timer
      cases timer
      exact ⟨nothing, rfl⟩
    rw [typed] at kept
    have isLive : objectExists world obj = true := by
      rw [exists_iff_type, kept]
      rfl
    have start := agreement.at obj
    rw [expires_of_type kept] at start
    by_cases timed : type.getFlag .expire = true
    · rw [if_pos timed] at timer
      rw [if_pos timed] at start
      exact stop_disagreement start isLive timer
    rw [if_neg timed] at timer
    rw [if_neg timed] at start
    cases timer
    exact ⟨start, rfl⟩
  apply release_agreement settled.1
  rw [settled.2]
  exact own

theorem deletion_agreement (fuel : Nat) :
    (∀ (world after : World cfg) obj, Agreement world →
        destroyObject fuel world obj = .ok after →
        Agreement after ∧ typeOf (kinds after) obj = none) ∧
      (∀ (world after : World cfg) obj, Agreement world →
        emptyContent fuel world obj = .ok after → Agreement after) ∧
      ∀ (world after : World cfg) obj, Agreement world →
        deleteWithin fuel world obj = .ok after →
        Agreement after ∧ typeOf (kinds after) obj = none := by
  have untyped : ∀ (world : World cfg) obj, objectExists world obj = false →
      typeOf (kinds world) obj = none := by
    intro world obj dead
    rw [← Option.not_isSome_iff_eq_none, ← exists_iff_type, dead]
    decide
  induction fuel with
  | zero =>
    refine ⟨?_, ?_, ?_⟩ <;>
      · nofun
  | succ fuel ih =>
    obtain ⟨destroyIH, emptyIH, deleteIH⟩ := ih
    refine ⟨?_, ?_, ?_⟩
    · intro world after obj agreement destroyed
      rcases destroy_cases destroyed with ⟨dead, rfl⟩ | ⟨less, first, emptied, remaining, stopped,
        same, isLive, ⟨strings, texts⟩, content, timer, rfl⟩
      · exact ⟨agreement, untyped _ _ dead⟩
      cases same
      have quiet : Quiet world first := by
        rw [texts]
        exact strings_quiet world strings
      have firstAgreement := agreement.quiet quiet
      have emptiedAgreement : Agreement emptied ∧ Shrunk first emptied := by
        rcases content with returned | rfl
        · exact ⟨emptyIH _ _ _ firstAgreement returned,
            (deletion_shrinks _).2.1 _ _ _ returned⟩
        · exact ⟨firstAgreement, (Quiet.refl _).shrunk⟩
      exact destroy_end (type_of_exists isLive)
        (quiet.shrunk.trans emptiedAgreement.2) emptiedAgreement.1 timer
    · intro world after obj agreement emptied
      rcases empty_content_cases emptied with rfl | ⟨less, inner, middle, same, deleted, rest⟩
      · exact agreement
      cases same
      exact emptyIH _ _ _ (deleteIH _ _ _ agreement deleted).1 rest
    · intro world after obj agreement deleted
      rcases delete_cases deleted with ⟨dead, rfl⟩ | ⟨less, cut, same, _, wasCut, destroyed⟩
      · exact ⟨agreement, untyped _ _ dead⟩
      cases same
      exact destroyIH _ _ _ (agreement.quiet (cut_quiet wasCut)) destroyed

/-- What `change_object` does while the object still has its old type: the timer
of an expiring object is gone and nothing else has happened to the timers. -/
theorem leave_type_spec (agreement : Agreement world) (isLive : objectExists world obj = true)
    (newType : ObjectType cfg) :
    ∃ carried left, leaveType world obj (getObjectType world obj) newType = .ok (carried, left) ∧
      Disagreement left obj 0 ∧ kinds left = kinds world ∧ left.roundNr = world.roundNr ∧
      left.nextObjectID = world.nextObjectID ∧
      ((getObjectType world obj).getFlag .expire = true →
        ∃ due, scheduled world.cron = (obj, due) ::ₘ scheduled left.cron) := by
  set oldType := getObjectType world obj with oldTypeIs
  have start := agreement.at obj
  rw [expires_of_type (type_of_exists isLive), ← oldTypeIs] at start
  by_cases field : oldType.isMapContainer = true
  · have lasts : oldType.getFlag .expire = false := by
      have zero : oldType.typeID = 0 := by simpa [ObjectType.isMapContainer] using field
      simp [ObjectType.getFlag, zero, cfg.mapContainer_lasts]
    rw [lasts] at start
    refine ⟨⟨0, 0, -1⟩, world, ?_, start, rfl, rfl, rfl, ?_⟩
    · rw [leaveType, if_pos field]
    · rw [lasts]
      rintro ⟨⟩
  have timer : ∃ saved stopped,
      (if oldType.getFlag .expire then cronStop world obj else .ok (0, world)) =
        .ok (saved, stopped) ∧
      Disagreement stopped obj 0 ∧ kinds stopped = kinds world ∧
      stopped.roundNr = world.roundNr ∧ stopped.nextObjectID = world.nextObjectID ∧
      (oldType.getFlag .expire = true →
        ∃ due, scheduled world.cron = (obj, due) ::ₘ scheduled stopped.cron) := by
    by_cases timed : oldType.getFlag .expire = true
    · rw [if_pos timed] at start ⊢
      obtain ⟨saved, cron, returned, _, effect⟩ :=
        cron_info_spec agreement.wellFormed obj true
      have stopped : cronStop world obj = .ok (saved, { world with cron := cron }) := by
        rw [cron_stop_eq, returned]
      obtain ⟨settled, table⟩ := stop_disagreement start isLive stopped
      refine ⟨saved, _, stopped, settled, table, rfl, rfl, ?_⟩
      intro _
      rcases effect with ⟨_, nobody⟩ | ⟨due, _, split⟩
      · have none_here := timers_zero (nobody rfl isLive)
        rw [start.here] at none_here
        cases none_here
      · exact ⟨due, split⟩
    rw [if_neg timed] at start ⊢
    exact ⟨0, world, rfl, start, rfl, rfl, rfl, fun timed' => (timed timed').elim⟩
  obtain ⟨saved, stopped, returned, settled, table, round, counter, taken⟩ := timer
  rw [leaveType, if_neg field]
  simp only [returned, ok_bind]
  refine ⟨_, _, rfl, ?_⟩
  set dropped := if (oldType.getFlag .text && !newType.getFlag .text) = true
    then dropStrings stopped obj else stopped with droppedIs
  have droppedQuiet : Quiet stopped dropped := by
    rw [droppedIs]
    split_ifs
    · exact drop_strings_quiet _ _
    · exact .refl stopped
  have quiet : Quiet stopped (if oldType.getFlag .magicField = true
      then setAttribute dropped obj .responsible 0 else dropped) := by
    apply droppedQuiet.trans
    split_ifs
    · exact set_attribute_quiet _ _ _ _
    · exact .refl dropped
  refine ⟨settled.quiet quiet, quiet.table.trans table, quiet.roundNr.trans round,
    quiet.nextObjectID.trans counter, ?_⟩
  rw [quiet.cron]
  exact taken

theorem enter_type_disagreement {count : Nat} (disagreement : Disagreement world obj count)
    (isLive : objectExists world obj = true) (newType : ObjectType cfg) (carried : Carried) :
    Disagreement (enterType world obj newType carried) obj count ∧
      typeOf (kinds (enterType world obj newType carried)) obj = some newType := by
  obtain ⟨table, cron, _⟩ := enter_type_kinds isLive newType carried
  have typed := type_of_exists isLive
  obtain ⟨notNone, kind⟩ := type_of_kind.mp typed
  have own := own_entry_of_type typed
  refine ⟨⟨?_, ?_, ?_, ?_⟩, ?_⟩
  · rw [cron]
    exact disagreement.wellFormed
  · rw [table, Function.update_of_ne]
    · exact disagreement.permanent
    · intro same
      rw [← same, disagreement.permanent] at kind
      cases kind
  · rw [cron]
    exact disagreement.here
  · intro other different
    have kept := type_of_update own notNone newType other
    rw [if_neg different, ← table] at kept
    rw [cron, expires_congr kept]
    exact disagreement.agree other different
  · rw [table, type_of_update own notNone, if_pos rfl]

variable (agreement : Agreement world)
include agreement

/-- `change_object` returns; the old entry of the object is gone and a new one is
there exactly when the new type expires. -/
theorem change_object_spec (isLive : objectExists world obj = true) (newType : ObjectType cfg) :
    ∃ changed, changeObject world obj newType = .ok changed ∧ Agreement changed ∧
      typeOf (kinds changed) obj = some newType ∧
      ((getObjectType world obj).getFlag .expire = true →
        ∃ due rest, scheduled world.cron = (obj, due) ::ₘ rest ∧
          (scheduled changed.cron = rest ∨ newType.getFlag .expire = true ∧
            ∃ renewed, scheduled changed.cron = (obj, renewed) ::ₘ rest)) := by
  obtain ⟨carried, left, returned, settled, table, _, _, taken⟩ :=
    leave_type_spec agreement isLive newType
  have leftLive : objectExists left obj = true := by
    rw [exists_iff_type, table, ← exists_iff_type]
    exact isLive
  obtain ⟨enteredDis, enteredTyped⟩ := enter_type_disagreement settled leftLive newType carried
  have enteredCron := (enter_type_kinds leftLive newType carried).2.1
  set entered := enterType left obj newType carried with enteredIs
  have enteredLive : objectExists entered obj = true := by
    rw [exists_iff_type, enteredTyped]
    rfl
  obtain ⟨registered, kept⟩ := expire_disagreement enteredDis enteredLive carried.delay
  rw [object_type_of enteredTyped, Nat.zero_add] at registered
  refine ⟨cronExpire entered obj carried.delay, ?_, ?_, ?_, ?_⟩
  · simp only [changeObject, isLive, Bool.not_true, Bool.false_eq_true, if_false, returned, ok_bind]
    rfl
  · apply registered.settle
    rw [kept, expires_of_type enteredTyped]
  · rw [kept]
    exact enteredTyped
  · intro timed
    obtain ⟨due, split⟩ := taken timed
    refine ⟨due, scheduled left.cron, split, ?_⟩
    rw [cron_expire_eq, object_type_of enteredTyped]
    by_cases again : newType.getFlag .expire = true
    · rw [if_pos ⟨enteredLive, again⟩]
      refine .inr ⟨again, entered.roundNr + expireDelay newType carried.delay, ?_⟩
      rw [← enteredCron]
      exact (cron_set_spec enteredDis.wellFormed obj _).2.2
    rw [if_neg (fun both => again both.2), enteredCron]
    exact .inl rfl

theorem change_agreement {newType : ObjectType cfg}
    (changed : changeObject world obj newType = .ok after) : Agreement after := by
  by_cases isLive : objectExists world obj = true
  · obtain ⟨result, returned, kept, _⟩ := change_object_spec agreement isLive newType
    rw [changed] at returned
    cases returned
    exact kept
  simp only [changeObject, isLive, Bool.not_false, if_true] at changed
  cases changed
  exact agreement

theorem create_placed_agreement {con : Object} {type : ObjectType cfg} {append : Bool}
    (created : createPlaced world con type append = .ok (obj, after)) : Agreement after := by
  obtain ⟨⟨newObj, made⟩, wasMade, rest⟩ := bind_ok.mp created
  obtain ⟨changed, wasChanged, rest⟩ := bind_ok.mp rest
  obtain ⟨placed, wasPlaced, ended⟩ := bind_ok.mp rest
  cases ended
  exact (change_agreement (create_agreement agreement wasMade).1 wasChanged).quiet
    (place_quiet wasPlaced)

theorem set_object_agreement {con : Object} {type : ObjectType cfg} {creatureID : UInt32}
    (placed : setObject world con type creatureID = .ok (obj, after)) : Agreement after := by
  unfold setObject at placed
  split_ifs at placed with _ creature
  · cases placed
    exact agreement
  · obtain ⟨⟨newObj, made⟩, wasMade, ended⟩ := bind_ok.mp placed
    cases ended
    exact (create_placed_agreement agreement wasMade).quiet (set_slot_quiet _ _ _ _)
  · obtain ⟨⟨newObj, made⟩, wasMade, ended⟩ := bind_ok.mp placed
    cases ended
    exact create_placed_agreement agreement wasMade

theorem copy_object_agreement {con source : Object}
    (copied : copyObject world con source = .ok (obj, after)) : Agreement after := by
  simp only [copyObject] at copied
  split_ifs at copied
  · cases copied
    exact agreement
  · cases copied
    exact agreement
  · cases copied
    exact agreement
  · obtain ⟨⟨newObj, placed⟩, wasPlaced, ended⟩ := bind_ok.mp copied
    cases ended
    exact (set_object_agreement agreement wasPlaced).quiet ((copy_slots_quiet _ _ _).trans
      ((clear_content_quiet _ _ _).trans (duplicate_strings_quiet _ _ _)))

theorem create_map_cons_agreement {sectorX sectorY sectorZ : Int} {fields : List (Fin 32 × Fin 32)}
    {mapCon result : Fin 32 → Fin 32 → Object}
    (created : createMapCons sectorX sectorY sectorZ fields world mapCon = .ok (after, result)) :
    Agreement after := by
  induction fields generalizing world mapCon with
  | nil =>
    cases created
    exact agreement
  | cons field rest ih =>
    obtain ⟨⟨newObj, made⟩, wasMade, ended⟩ := bind_ok.mp created
    obtain ⟨⟨blank, first⟩, wasCreated, written⟩ := bind_ok.mp wasMade
    cases written
    apply ih _ ended
    exact (create_agreement agreement wasCreated).1.quiet ((set_slot_quiet _ _ _ _).trans
      ((set_slot_quiet _ _ _ _).trans (set_slot_quiet _ _ _ _)))

theorem call_map_agreement {call : MapCall cfg} (called : callMap world call = .ok after) :
    Agreement after := by
  cases call with
  | initSector sectorX sectorY sectorZ =>
    simp only [callMap, initSector] at called
    split_ifs at called
    · cases called
      exact agreement
    · obtain ⟨⟨filled, mapCon⟩, wasFilled, ended⟩ := bind_ok.mp called
      cases ended
      exact (create_map_cons_agreement agreement wasFilled).quiet ⟨rfl, rfl, rfl, rfl, rfl⟩
  | appendObject con type =>
    obtain ⟨⟨newObj, result⟩, appended, rfl⟩ := map_ok.mp called
    unfold appendObject at appended
    split_ifs at appended
    · cases appended
      exact agreement
    · exact create_placed_agreement agreement appended
  | setObject con type creatureID =>
    obtain ⟨⟨newObj, result⟩, placed, rfl⟩ := map_ok.mp called
    exact set_object_agreement agreement placed
  | copyObject con source =>
    obtain ⟨⟨newObj, result⟩, copied, rfl⟩ := map_ok.mp called
    exact copy_object_agreement agreement copied
  | splitObject source count =>
    obtain ⟨⟨newObj, result⟩, split, rfl⟩ := map_ok.mp called
    simp only [splitObject] at split
    split_ifs at split
    · cases split
      exact agreement
    · cases split
      exact agreement
    · cases split
      exact agreement
    · cases split
      exact agreement
    · obtain ⟨⟨copy, copied⟩, wasCopied, ended⟩ := bind_ok.mp split
      cases ended
      exact (copy_object_agreement agreement wasCopied).quiet
        ((set_attribute_quiet _ _ _ _).trans (set_attribute_quiet _ _ _ _))
  | mergeObjects source dest =>
    simp only [callMap, mergeObjects] at called
    split_ifs at called
    · cases called
      exact agreement
    · cases called
      exact agreement
    · cases called
      exact agreement
    · cases called
      exact agreement
    all_goals
      exact ((deletion_agreement _).2.2 _ _ _
        (agreement.quiet (set_attribute_quiet _ _ _ _)) called).1
  | moveObject source con =>
    simp only [callMap, moveObject] at called
    split_ifs at called
    · cases called
      exact agreement
    · cases called
      exact agreement
    · obtain ⟨cut, wasCut, placed⟩ := bind_ok.mp called
      exact agreement.quiet ((cut_quiet wasCut).trans (place_quiet placed))
  | deleteObject source => exact ((deletion_agreement _).2.2 _ _ _ agreement called).1
  | changeObject source newType => exact change_agreement agreement called
  | changeAttribute source attr value =>
    cases called
    unfold changeAttribute
    split_ifs
    · exact agreement
    · exact agreement.quiet (set_attribute_quiet _ _ _ _)
  | nextRound roundNr =>
    cases called
    exact ⟨agreement.wellFormed, agreement.permanent, agreement.agree⟩

theorem run_map_agreement {calls : List (MapCall cfg)} (reached : runMap world calls = .ok after) :
    Agreement after := by
  induction calls generalizing world with
  | nil =>
    cases reached
    exact agreement
  | cons call rest ih =>
    obtain ⟨middle, stepped, later⟩ := bind_ok.mp reached
    exact ih (call_map_agreement agreement stepped) later

end TibiaGame.CronAgreement
