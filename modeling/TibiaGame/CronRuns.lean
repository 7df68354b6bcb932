import TibiaGame.ObjectStore

/-!
# Runs of the cron operations

`cron_expire`, `cron_change`, `cron_info` and `cron_stop` are called with any
object and any delay, and between two calls the rest of the server may do
anything that does not go through the cron store.
-/

namespace TibiaGame.CronRuns

open GameTypes CronModel CronInvariant CronOperations ObjectStore
open Library.LinkedList

variable {cfg : GameConfig} {world : World cfg}

/-- The delay `cron_expire` passes on: -1 stands for the full time of the type. -/
def expireDelay (type : ObjectType cfg) (delay : Int32) : UInt32 :=
  if delay = -1 then type.getAttribute .totalExpireTime else delay.toUInt32

theorem set_timer_live {obj : Object} (isLive : objectExists world obj = true) (delay : UInt32) :
    setTimer world obj delay =
      { world with cron := cronSet world.cron obj (world.roundNr + delay) } := by
  rw [setTimer, if_pos isLive]

theorem cron_expire_eq (obj : Object) (delay : Int32) :
    cronExpire world obj delay =
      if objectExists world obj = true ∧ (getObjectType world obj).getFlag .expire = true then
        { world with
          cron := cronSet world.cron obj
            (world.roundNr + expireDelay (getObjectType world obj) delay) }
      else world := by
  unfold cronExpire expireDelay
  by_cases isLive : objectExists world obj = true
  · by_cases expires : (getObjectType world obj).getFlag .expire = true
    · simp only [isLive, expires, if_true, and_self, set_timer_live isLive]
      split_ifs <;> rfl
    · simp [isLive, expires]
  · simp [isLive]

section

variable (wellFormed : WellFormed world.cron) (obj : Object)
include wellFormed obj

theorem cron_expire_well_formed (delay : Int32) : WellFormed (cronExpire world obj delay).cron := by
  rw [cron_expire_eq]
  split_ifs
  · exact (cron_set_spec wellFormed _ _).1
  · exact wellFormed

theorem cron_change_spec (newDelay : Int32) :
    ∃ cron, cronChange world obj newDelay = .ok { world with cron := cron } ∧ WellFormed cron := by
  unfold cronChange
  split_ifs
  · rcases cron_find_spec wellFormed obj with ⟨missing, _⟩ | ⟨position, found, member, _⟩
    · exact ⟨world.cron, by rw [missing]; rfl, wellFormed⟩
    · exact ⟨_, by rw [found]; rfl, (cron_reschedule_spec wellFormed member _).1⟩
  · exact ⟨world.cron, rfl, wellFormed⟩

/-- `cron_info` returns; when it deletes, it takes out one entry of the object. -/
theorem cron_info_spec (deleteOp : Bool) :
    ∃ remaining cron, cronInfo world obj deleteOp = .ok (remaining, { world with cron := cron }) ∧
      WellFormed cron ∧
      ((cron = world.cron ∧ (deleteOp = true → objectExists world obj = true →
          ∀ due, (obj, due) ∉ scheduled world.cron)) ∨
        ∃ due, deleteOp = true ∧ scheduled world.cron = (obj, due) ::ₘ scheduled cron) := by
  by_cases isLive : objectExists world obj = true
  · rw [cronInfo, if_pos isLive]
    rcases cron_find_spec wellFormed obj with ⟨missing, none_here⟩ | ⟨position, found, member, here⟩
    · refine ⟨0, world.cron, by rw [missing]; rfl, wellFormed, .inl ⟨rfl, ?_⟩⟩
      intro _ _ due inside
      obtain ⟨p, occupied, same⟩ := Multiset.mem_map.mp inside
      exact none_here p (mem_positions.mp occupied) (congrArg Prod.fst same)
    obtain ⟨done, _, split⟩ := cron_delete_spec wellFormed member
    rcases deleteOp with _ | _
    · exact ⟨_, world.cron, by rw [found]; rfl, wellFormed, .inl ⟨rfl, by simp⟩⟩
    refine ⟨_, _, by rw [found]; rfl, done,
      .inr ⟨(world.cron.cronEntryArray position).roundNr, rfl, ?_⟩⟩
    rw [split, payload, here]
  rw [cronInfo, if_neg isLive]
  exact ⟨0, world.cron, rfl, wellFormed, .inl ⟨rfl, fun _ live => (isLive live).elim⟩⟩

end

theorem cron_stop_eq (obj : Object) : cronStop world obj = cronInfo world obj true := by
  unfold cronStop
  split_ifs with isLive
  · rfl
  · simp [cronInfo, isLive]

inductive CronCall (cfg : GameConfig) where
  | cronExpire (obj : Object) (delay : Int32)
  | cronChange (obj : Object) (newDelay : Int32)
  | cronInfo (obj : Object) (deleteOp : Bool)
  | cronStop (obj : Object)
  | elsewhere (outcome : World cfg)

def callCron (world : World cfg) : CronCall cfg → Except Halt (World cfg)
  | .cronExpire obj delay => .ok (cronExpire world obj delay)
  | .cronChange obj newDelay => cronChange world obj newDelay
  | .cronInfo obj deleteOp => (cronInfo world obj deleteOp).map Prod.snd
  | .cronStop obj => (cronStop world obj).map Prod.snd
  | .elsewhere outcome => .ok { outcome with cron := world.cron }

def runCron (world : World cfg) : List (CronCall cfg) → Except Halt (World cfg)
  | [] => .ok world
  | call :: rest => do runCron (← callCron world call) rest

theorem call_cron_well_formed (wellFormed : WellFormed world.cron) (call : CronCall cfg) :
    ∃ after, callCron world call = .ok after ∧ WellFormed after.cron := by
  cases call with
  | cronExpire obj delay => exact ⟨_, rfl, cron_expire_well_formed wellFormed obj delay⟩
  | cronChange obj newDelay =>
    obtain ⟨cron, returned, kept⟩ := cron_change_spec wellFormed obj newDelay
    exact ⟨_, returned, kept⟩
  | cronInfo obj deleteOp =>
    obtain ⟨remaining, cron, returned, kept, _⟩ := cron_info_spec wellFormed obj deleteOp
    exact ⟨{ world with cron := cron }, by simp only [callCron, returned]; rfl, kept⟩
  | cronStop obj =>
    obtain ⟨remaining, cron, returned, kept, _⟩ := cron_info_spec wellFormed obj true
    exact ⟨{ world with cron := cron },
      by simp only [callCron, cron_stop_eq, returned]; rfl, kept⟩
  | elsewhere outcome => exact ⟨_, rfl, wellFormed⟩

theorem run_cron_well_formed (wellFormed : WellFormed world.cron) (calls : List (CronCall cfg)) :
    ∃ after, runCron world calls = .ok after ∧ WellFormed after.cron := by
  induction calls generalizing world with
  | nil => exact ⟨world, rfl, wellFormed⟩
  | cons call rest ih =>
    obtain ⟨middle, stepped, kept⟩ := call_cron_well_formed wellFormed call
    obtain ⟨after, returned, done⟩ := ih kept
    refine ⟨after, ?_, done⟩
    rw [runCron, stepped]
    exact returned

/-- The heap and the chains as a reader of `CronEntryArray` and `CronHashTable`
finds them, with no link to position 0 or past `CronEntries`. -/
structure CronRepresentation (cron : CronStore) : Prop where
  heap : ∀ p, 2 ≤ p → p ≤ cron.cronEntries →
    (cron.cronEntryArray (p / 2)).roundNr ≤ (cron.cronEntryArray p).roundNr
  chain : ∀ bucket, ∃ members,
    Chain (-1) (fun p => (cron.cronEntryArray p).next) (cron.cronHashTable bucket) members ∧
      (∀ p ∈ members, 1 ≤ p ∧ p ≤ cron.cronEntries ∧
        cronBucket (cron.cronEntryArray p).obj = bucket) ∧
      ∀ p, 1 ≤ p → p ≤ cron.cronEntries → cronBucket (cron.cronEntryArray p).obj = bucket →
        members.count p = 1
  next_previous : ∀ p, 1 ≤ p → p ≤ cron.cronEntries → (cron.cronEntryArray p).next ≠ -1 →
    (cron.cronEntryArray (cron.cronEntryArray p).next).previous = p
  previous_next : ∀ p, 1 ≤ p → p ≤ cron.cronEntries → (cron.cronEntryArray p).previous ≠ -1 →
    (cron.cronEntryArray (cron.cronEntryArray p).previous).next = p
  bucket_head : ∀ p, 1 ≤ p → p ≤ cron.cronEntries →
    ((cron.cronEntryArray p).previous = -1 ↔
      cron.cronHashTable (cronBucket (cron.cronEntryArray p).obj) = p)
  links_inside : ∀ p, 1 ≤ p → p ≤ cron.cronEntries →
    ((cron.cronEntryArray p).next = -1 ∨
      1 ≤ (cron.cronEntryArray p).next ∧ (cron.cronEntryArray p).next ≤ cron.cronEntries) ∧
    ((cron.cronEntryArray p).previous = -1 ∨
      1 ≤ (cron.cronEntryArray p).previous ∧ (cron.cronEntryArray p).previous ≤ cron.cronEntries)
  heads_inside : ∀ bucket, cron.cronHashTable bucket = -1 ∨
    1 ≤ cron.cronHashTable bucket ∧ cron.cronHashTable bucket ≤ cron.cronEntries

theorem well_formed_represents {cron : CronStore} (wellFormed : WellFormed cron) :
    CronRepresentation cron where
  heap := by
    intro p lower upper
    exact UInt32.le_iff_toNat_le.mpr (wellFormed.heap p lower upper)
  chain := by
    intro bucket
    obtain ⟨members, chain, nodup, inBucket⟩ := wellFormed.linked.bucket_chain bucket
    refine ⟨members, chain, ?_, ?_⟩
    · intro p member
      obtain ⟨⟨lower, upper⟩, hashed⟩ := (inBucket p).mp member
      exact ⟨lower, upper, hashed⟩
    · intro p lower upper hashed
      exact List.count_eq_one_of_mem nodup ((inBucket p).mpr ⟨⟨lower, upper⟩, hashed⟩)
  next_previous := fun p lower upper inner => (wellFormed.linked.next_live p ⟨lower, upper⟩ inner).2.1
  previous_next := fun p lower upper inner => (wellFormed.linked.prev_live p ⟨lower, upper⟩ inner).2
  bucket_head := by
    intro p lower upper
    constructor
    · exact wellFormed.linked.first p ⟨lower, upper⟩
    intro isHead
    have head := wellFormed.linked.head_live (cronBucket (cron.cronEntryArray p).obj)
      (by simp only [cronLinks, isHead]; omega)
    simp only [cronLinks, isHead] at head
    exact head.2.1
  links_inside := by
    intro p lower upper
    constructor
    · by_cases last : (cron.cronEntryArray p).next = -1
      · exact .inl last
      · exact .inr (wellFormed.linked.next_live p ⟨lower, upper⟩ last).1
    · by_cases outer : (cron.cronEntryArray p).previous = -1
      · exact .inl outer
      · exact .inr (wellFormed.linked.prev_live p ⟨lower, upper⟩ outer).1
  heads_inside := by
    intro bucket
    by_cases empty : cron.cronHashTable bucket = -1
    · exact .inl empty
    · exact .inr (wellFormed.linked.head_live bucket empty).1

/-- Every sequence of cron operations returns and leaves the store represented as
`CronRepresentation` says. -/
theorem cron_operations_keep_representation (cfg : GameConfig) (calls : List (CronCall cfg)) :
    ∃ after, runCron (initialWorld cfg) calls = .ok after ∧ CronRepresentation after.cron := by
  have initial : WellFormed (initialWorld cfg).cron := empty_well_formed
  obtain ⟨after, returned, kept⟩ := run_cron_well_formed initial calls
  exact ⟨after, returned, well_formed_represents kept⟩

end TibiaGame.CronRuns
