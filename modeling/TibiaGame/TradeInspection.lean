import TibiaGame.FurnishedWorlds

/-!
# Looking at the objects of a trade

`TPlayer::InspectTrade` finds an object of an offer by the number that `SendTradeObjects` has
given it. The walk goes on in the content list that the offer itself lies in.
-/

namespace TibiaGame.TradeInspection

open GameTypes ObjectStore ObjectOperations InfoModel ContentForest ForestSteps ForestDeletion List
open ForestOperations Library.Outcome ContainerWalks FurnishedWorlds
open Library.LinkedList Library.OrderedForest Library.ForestSums

/-- What `InspectTrade` reads of a `TPlayer`. -/
structure Trader where
  tradeObject : Object
  tradePartner : UInt32

structure Trades (cfg : GameConfig) where
  world : World cfg
  players : UInt32 → Option Trader

variable {cfg : GameConfig}

def offerFor (state : Trades cfg) (player : UInt32) (ownOffer : Bool) : Object :=
  match state.players player with
  | none => NONE
  | some trader =>
      if trader.tradeObject = NONE then NONE
      else if ownOffer then trader.tradeObject
      else if trader.tradePartner = 0 then NONE
      else match state.players trader.tradePartner with
        | none => NONE
        | some partner =>
            if partner.tradeObject = NONE ∨ partner.tradePartner ≠ player then NONE
            else partner.tradeObject

def inspectWalk (world : World cfg) : Nat → Object → Int → Except Halt Object
  | 0, _, _ => .error .hang
  | fuel + 1, obj, position =>
      if obj ≠ NONE ∧ position > 0 then do
        let objCount : Int := (← countObjects world obj : Nat)
        if position < objCount then
          inspectWalk world fuel (getFirstContainerObject world obj) (position - 1)
        else inspectWalk world fuel (getNextObject world obj) (position - objCount)
      else .ok obj

def inspectTrade (state : Trades cfg) (player : UInt32) (ownOffer : Bool) (position : Int) :
    Except Halt Object :=
  inspectWalk state.world walkLimit (offerFor state player ownOffer) position

mutual

/-- The objects that `SendTradeObjects` sends, one after the other. -/
def tradeObjects (world : World cfg) : Nat → Object → Except Halt (List Object)
  | 0, _ => .error .hang
  | fuel + 1, obj =>
      if !objectExists world obj then .ok []
      else if (getObjectType world obj).getFlag .container then do
        .ok (obj :: (← tradeRow world fuel (getFirstContainerObject world obj)))
      else .ok [obj]

def tradeRow (world : World cfg) : Nat → Object → Except Halt (List Object)
  | 0, _ => .error .hang
  | fuel + 1, help =>
      if help = NONE then .ok []
      else do
        .ok ((← tradeObjects world fuel help) ++
          (← tradeRow world fuel (getNextObject world help)))

end

def sendTradeObjects (world : World cfg) (obj : Object) : Except Halt (List Object) :=
  tradeObjects world walkLimit obj

/-- The object at the position of the offer, and none where there is no such position. -/
def StaysInOffer (listing : List Object) (position : Nat) (found : Object) : Prop :=
  (position < listing.length → listing[position]? = some found) ∧
    (listing.length ≤ position → found = NONE)

section Listings

def preorder (kids : Object → List Object) : Nat → Object → List Object
  | 0, _ => []
  | level + 1, obj => obj :: (kids obj).flatMap (preorder kids level)

variable {world : World cfg} {kids : Object → List Object} {obj con : Object}

theorem counted_child (forest : Forest (liveRecord world) kids) {child : Object}
    (edge : child ∈ countedKids world kids obj) :
    counted world kids child < counted world kids obj := by
  have total := counted_eq forest obj
  have part := single_le_sum (fun _ _ => Nat.zero_le _) _
    (mem_map_of_mem (f := counted world kids) edge)
  omega

theorem preorder_level (forest : Forest (liveRecord world) kids) (first second : Nat)
    (deep : counted world kids obj ≤ first) (alsoDeep : counted world kids obj ≤ second) :
    preorder (countedKids world kids) first obj = preorder (countedKids world kids) second obj := by
  induction first generalizing obj second with
  | zero =>
    have total := counted_eq forest obj
    omega
  | succ first ih =>
    rcases second with _ | second
    · have total := counted_eq forest obj
      omega
    rw [preorder, preorder]
    congr 1
    apply flatMap_congr
    intro child edge
    have fewer := counted_child forest edge
    exact ih second (by omega) (by omega)

noncomputable def listing (world : World cfg) (kids : Object → List Object) (obj : Object) :
    List Object :=
  preorder (countedKids world kids) (counted world kids obj) obj

section

variable (forest : Forest (liveRecord world) kids)
include forest

theorem listing_eq (obj : Object) :
    listing world kids obj =
      obj :: (countedKids world kids obj).flatMap (listing world kids) := by
  have total := counted_eq forest obj
  have level : counted world kids obj = (counted world kids obj - 1) + 1 := by omega
  rw [listing, level, preorder]
  congr 1
  apply flatMap_congr
  intro child edge
  have fewer := counted_child forest edge
  exact preorder_level forest _ _ (by omega) le_rfl

theorem listing_length (obj : Object) :
    (listing world kids obj).length = counted world kids obj := by
  induction size : counted world kids obj using Nat.strong_induction_on generalizing obj with
  | _ size ih =>
    have children : (countedKids world kids obj).map (fun child => (listing world kids child).length) =
        (countedKids world kids obj).map (counted world kids) := by
      apply map_congr_left
      intro child edge
      have fewer := counted_child forest edge
      exact ih _ (by omega) child rfl
    rw [listing_eq forest, length_cons, length_flatMap, children, ← size,
      counted_eq forest obj, Nat.add_comm]

theorem row_length (members : List Object) :
    (members.flatMap (listing world kids)).length = (members.map (counted world kids)).sum := by
  rw [length_flatMap]
  congr 1
  apply map_congr_left
  intro node _
  exact listing_length forest node

theorem trade_objects_within (fuel : Nat) :
    (∀ obj, objectExists world obj = true → 2 * counted world kids obj ≤ fuel →
      tradeObjects world fuel obj = .ok (listing world kids obj)) ∧
    ∀ members first, Chain NONE (getNextObject world) first members →
      (∀ node ∈ members, objectExists world node = true) →
      2 * (members.map (counted world kids)).sum + 1 ≤ fuel →
      tradeRow world fuel first = .ok (members.flatMap (listing world kids)) := by
  induction fuel with
  | zero =>
    constructor
    · intro obj isLive enough
      have := counted_eq forest obj
      omega
    · intro members first chain alive enough
      omega
  | succ fuel ih =>
    constructor
    · intro obj isLive enough
      have total := counted_eq forest obj
      rw [tradeObjects, isLive, listing_eq forest]
      simp only [Bool.not_true, Bool.false_eq_true, if_false]
      unfold countedKids at total ⊢
      split_ifs at total ⊢ with isContainer
      · have row := ih.2 (kids obj) _ (row_chain forest isLive)
          (fun node member => (member_container forest member).1) (by omega)
        rw [row]
        rfl
      · rfl
    intro members first chain alive enough
    rcases members with _ | ⟨node, rest⟩
    · have ended : first = NONE := chain
      rw [tradeRow, if_pos ended]
      rfl
    rcases chain with ⟨here, inner, later⟩
    rw [← here] at inner later alive enough ⊢
    rw [map_cons, sum_cons] at enough
    have positive := counted_eq forest first
    have one := ih.1 first (alive first (by simp)) (by omega)
    have others := ih.2 rest _ later
      (fun node member => alive node (mem_cons_of_mem first member)) (by omega)
    rw [tradeRow, if_neg inner, one, others]
    rfl

theorem listing_alive (isLive : objectExists world obj = true) :
    ∀ node ∈ listing world kids obj, objectExists world node = true := by
  induction size : counted world kids obj using Nat.strong_induction_on generalizing obj with
  | _ size ih =>
    intro node member
    rw [listing_eq forest, mem_cons, mem_flatMap] at member
    rcases member with same | deeper
    · rw [same]
      exact isLive
    rcases deeper with ⟨child, edge, under⟩
    have fewer := counted_child forest edge
    have childLive := (member_container forest (counted_subset _ _ edge)).1
    exact ih _ (by omega) childLive rfl node under

end

theorem counted_few (world : World cfg) (kids : Object → List Object) (obj : Object) :
    counted world kids obj ≤ 2 ^ 32 := by
  have bound := Set.ncard_le_card (inside (countedKids world kids) obj)
  have few := nat_card_object
  unfold counted
  omega

theorem send_trade_objects_spec (forest : Forest (liveRecord world) kids)
    (isLive : objectExists world obj = true) :
    sendTradeObjects world obj = .ok (listing world kids obj) := by
  apply (trade_objects_within forest walkLimit).1 obj isLive
  have few := counted_few world kids obj
  unfold walkLimit
  omega

end Listings

section Inspection

variable {world : World cfg} {kids : Object → List Object} {obj con : Object}

/-- The walk along a content list finds the object at the position in all of its trees. -/
theorem inspect_walk_row (forest : Forest (liveRecord world) kids) {members : List Object}
    {first : Object} (fuel : Nat) (chain : Chain NONE (getNextObject world) first members)
    (alive : ∀ node ∈ members, objectExists world node = true)
    (enough : (members.map (counted world kids)).sum < fuel) (position : Nat) :
    inspectWalk world fuel first position =
      .ok ((members.flatMap (listing world kids))[position]?.getD NONE) := by
  induction fuel generalizing members first position with
  | zero => exact (Nat.not_lt_zero _ enough).elim
  | succ fuel ih =>
    rcases members with _ | ⟨node, rest⟩
    · have ended : first = NONE := chain
      rw [inspectWalk, if_neg (fun both => both.1 ended), ended]
      rfl
    rcases chain with ⟨here, inner, later⟩
    rw [← here] at inner later alive enough ⊢
    rw [map_cons, sum_cons] at enough
    have isLive := alive first (by simp)
    have total := counted_eq forest first
    have length := listing_length forest first
    rcases position with _ | position
    · rw [inspectWalk, if_neg (fun both => absurd both.2 (by decide)), flatMap_cons,
        listing_eq forest]
      rfl
    rw [inspectWalk, if_pos ⟨inner, by omega⟩, count_objects_spec forest isLive]
    simp only [ok_bind]
    by_cases within : position + 1 < counted world kids first
    · -- The object has content, so that it is one of those that are counted into.
      have holds : countedKids world kids first = kids first := by
        unfold countedKids at total ⊢
        split_ifs at total ⊢
        · rfl
        · rw [map_nil, sum_nil] at total
          omega
      rw [if_pos (by omega)]
      have deeper := ih (row_chain forest isLive)
        (fun child edge => (member_container forest edge).1)
        (by rw [← holds]; omega) position
      rw [show ((position + 1 : Nat) : Int) - 1 = (position : Int) by omega, deeper,
        flatMap_cons, List.getElem?_append_left (by omega), listing_eq forest, holds]
      rfl
    rw [if_neg (by omega)]
    have further := ih later
      (fun other member => alive other (mem_cons_of_mem first member))
      (by omega) (position + 1 - counted world kids first)
    rw [← Nat.cast_sub (by omega), further, flatMap_cons,
      List.getElem?_append_right (by omega), length]

structure Behind (world : World cfg) (kids : Object → List Object) (obj : Object)
    (members : List Object) : Prop where
  chain : Chain NONE (getNextObject world) (getNextObject world obj) members
  alive : ∀ node ∈ members, objectExists world node = true
  few : (members.map (counted world kids)).sum + counted world kids obj ≤ 2 ^ 32

theorem siblings_few (forest : Forest (liveRecord world) kids) (con : Object)
    (members : List Object) (nodup : members.Nodup) (children : ∀ node ∈ members, node ∈ kids con) :
    (members.map (counted world kids)).sum ≤ 2 ^ 32 := by
  have total := siblings_count forest.single forest.ranked members nodup children
  have bound := Set.ncard_le_card {x | ∃ child ∈ members, Below kids child x}
  have few := nat_card_object
  have fewer : (members.map (counted world kids)).sum ≤
      (members.map fun child => {x | Below kids child x}.ncard).sum := by
    apply sum_le_sum
    intro node _
    apply Set.ncard_le_ncard
    · intro x under
      exact counted_below under
    · exact Set.toFinite _
  omega

theorem behind_exists (forest : Forest (liveRecord world) kids)
    (isLive : objectExists world obj = true) : ∃ members, Behind world kids obj members := by
  rcases container_cases forest isLive with loose | inside
  · exists []
    constructor
    · rcases object_exists_iff.mp isLive with ⟨record, live⟩
      have isLoose : containerOf (liveRecord world) obj = some NONE := by
        rw [containerOf, live, Option.map_some, ← loose.1, getContainer, access_live live]
      have ended := forest.loose_next obj isLoose
      rw [← next_of_live live] at ended
      exact ended
    · rintro _ ⟨⟩
    · rw [map_nil, sum_nil, Nat.zero_add]
      exact counted_few world kids obj
  rcases append_of_mem inside.1 with ⟨front, back, split⟩
  have row := row_chain forest inside.2
  have nodup := forest.nodup (getContainer world obj)
  rw [split] at row nodup
  exists back
  constructor
  · exact (chain_suffix row).2.2
  · intro node member
    have edge : node ∈ kids (getContainer world obj) := by
      rw [split]
      exact mem_append_right front (mem_cons_of_mem obj member)
    exact (member_container forest edge).1
  · have few := siblings_few forest (getContainer world obj) (obj :: back)
      (nodup_append.mp nodup).2.1 (by
        intro node member
        rw [split]
        exact mem_append_right front member)
    rw [map_cons, sum_cons, Nat.add_comm] at few
    exact few

end Inspection

section Offers

/-- The position is looked up in the offer and what lies behind it, where none is no object. -/
theorem row_stays (sent later : List Object) (notNone : ∀ node ∈ later, node ≠ NONE)
    (position : Nat) :
    StaysInOffer sent position ((sent ++ later)[position]?.getD NONE) ↔
      position < sent.length ∨ sent.length + later.length ≤ position := by
  unfold StaysInOffer
  by_cases within : position < sent.length
  · rw [List.getElem?_append_left within, List.getElem?_eq_getElem within]
    constructor
    · intro _
      exact .inl within
    intro _
    constructor
    · intro _
      rfl
    · intro beyond
      omega
  rw [List.getElem?_append_right (by omega)]
  by_cases further : position - sent.length < later.length
  · rw [List.getElem?_eq_getElem further, Option.getD_some]
    constructor
    · intro stays
      exact absurd (stays.2 (by omega)) (notNone _ (getElem_mem further))
    · intro either
      omega
  have missing : later[position - sent.length]? = none :=
    List.getElem?_eq_none (by omega)
  rw [missing, Option.getD_none]
  constructor
  · intro _
    exact .inr (by omega)
  intro _
  constructor
  · intro inOffer
    exact absurd inOffer within
  · intro _
    rfl

variable {state : Trades cfg} {kids : Object → List Object} {offer : Object}

/-- `InspectTrade` stays in the offer, except for the positions that belong to the objects
behind the offer in the content list where it lies. -/
theorem inspection_stays_in_offer (forest : Forest (liveRecord state.world) kids) (player : UInt32)
    (ownOffer : Bool) (isOffer : offerFor state player ownOffer = offer)
    (isLive : objectExists state.world offer = true) (position : Nat) :
    ∃ sent behind found, sendTradeObjects state.world offer = .ok sent ∧
      countObjects state.world offer = .ok sent.length ∧
      countRow state.world walkLimit (getNextObject state.world offer) = .ok behind ∧
      inspectTrade state player ownOffer position = .ok found ∧
      (StaysInOffer sent position found ↔
        position < sent.length ∨ sent.length + behind ≤ position) := by
  rcases behind_exists forest isLive with ⟨members, behind⟩
  have length := listing_length forest offer
  have bound := behind.few
  have counted_behind := (count_within_spec forest walkLimit).2 members _ behind.chain behind.alive
    (by unfold walkLimit; omega)
  have isChain : Chain NONE (getNextObject state.world) offer (offer :: members) :=
    ⟨rfl, live_ne_none forest isLive, behind.chain⟩
  have walked := inspect_walk_row forest walkLimit isChain
    (by
      intro node member
      rcases mem_cons.mp member with same | later
      · rw [same]
        exact isLive
      · exact behind.alive node later)
    (by
      rw [map_cons, sum_cons]
      unfold walkLimit
      omega) position
  rw [flatMap_cons] at walked
  have counts : countObjects state.world offer = .ok (listing state.world kids offer).length := by
    rw [length]
    exact count_objects_spec forest isLive
  have looked : inspectTrade state player ownOffer position = .ok
      ((listing state.world kids offer ++ members.flatMap (listing state.world kids))[position]?.getD
        NONE) := by
    rw [inspectTrade, isOffer]
    exact walked
  have stays := row_stays (listing state.world kids offer)
    (members.flatMap (listing state.world kids)) (by
      intro node member
      rcases mem_flatMap.mp member with ⟨root, inRow, under⟩
      exact live_ne_none forest (listing_alive forest (behind.alive root inRow) node under)) position
  rw [row_length forest members] at stays
  exact ⟨_, _, _, send_trade_objects_spec forest isLive, counts, counted_behind, looked, stays⟩

def bagAndSword : List (Furniture smallTypes) :=
  [⟨⟨1⟩, setTypeID smallTypes 103, 0, 0⟩, ⟨⟨1⟩, setTypeID smallTypes 101, 0, 0⟩,
    ⟨⟨4⟩, setTypeID smallTypes 102, 0, 1⟩, ⟨⟨4⟩, setTypeID smallTypes 102, 0, 1⟩]

def oneOffer (world : World smallTypes) (offer : Object) : Trades smallTypes :=
  ⟨world, fun player => if player = 1 then some ⟨offer, 2⟩ else none⟩

theorem one_offer (world : World smallTypes) : offerFor (oneOffer world ⟨4⟩) 1 true = ⟨4⟩ := rfl

theorem bag_is_inspected : ∃ (state : Trades smallTypes) (kids : Object → List Object),
    Forest (liveRecord state.world) kids ∧ ∃ sent behind found,
      sendTradeObjects state.world ⟨4⟩ = .ok sent ∧
      countObjects state.world ⟨4⟩ = .ok sent.length ∧
      countRow state.world walkLimit (getNextObject state.world ⟨4⟩) = .ok behind ∧
      inspectTrade state 1 true (2 : Nat) = .ok found ∧
      (StaysInOffer sent 2 found ↔ 2 < sent.length ∨ sent.length + behind ≤ 2) := by
  have passes : furnishedSuch bagAndSword (fun world => objectExists world ⟨4⟩) = true := by
    decide +kernel
  rcases furnished_such passes with ⟨world, kids, sound, isLive⟩
  have forest : Forest (liveRecord (oneOffer world ⟨4⟩).world) kids := sound.described.forest
  exact ⟨oneOffer world ⟨4⟩, kids, forest,
    inspection_stays_in_offer forest 1 true (one_offer world) isLive 2⟩

/-- Behind the last object of the bag, the sword beside it is shown. -/
theorem inspection_leaves_the_bag : ∃ (state : Trades smallTypes) (kids : Object → List Object),
    Forest (liveRecord state.world) kids ∧ offerFor state 1 true = ⟨4⟩ ∧
      objectExists state.world ⟨4⟩ = true ∧
      sendTradeObjects state.world ⟨4⟩ = .ok [⟨4⟩, ⟨6⟩, ⟨5⟩] ∧
      inspectTrade state 1 true (3 : Nat) = .ok ⟨3⟩ ∧
      ¬ StaysInOffer [⟨4⟩, ⟨6⟩, ⟨5⟩] 3 ⟨3⟩ := by
  have passes : furnishedSuch bagAndSword (fun world => objectExists world ⟨4⟩ &&
      decide (sendTradeObjects world ⟨4⟩ = .ok [⟨4⟩, ⟨6⟩, ⟨5⟩]) &&
      decide (inspectTrade (oneOffer world ⟨4⟩) 1 true (3 : Nat) = .ok ⟨3⟩)) = true := by
    decide +kernel
  rcases furnished_such passes with ⟨world, kids, sound, test⟩
  simp only [Bool.and_eq_true, decide_eq_true_eq] at test
  refine ⟨oneOffer world ⟨4⟩, kids, sound.described.forest, one_offer world, test.1.1, test.1.2, test.2, ?_⟩
  intro stays
  have same := stays.2 (by decide)
  exact absurd same (by decide)

end Offers

end TibiaGame.TradeInspection
