import TibiaGame.ObjectSaving
import TibiaGame.Library.CountedArray

/-!
# Delayed mails

`send_mails` of `moveuse.cpp` takes the mails of a player out of the array of the delayed ones and
puts their packets in front of the streams of the depots.
-/

namespace TibiaGame.MailDelivery

open GameTypes ObjectStore ForestRuns ObjectStreams ObjectText ObjectLoading ObjectSaving List
open ObjectOperations Library.LittleEndian Library.CountedArray

variable {cfg : GameConfig}

/-- What `save_objects` writes for one object. -/
structure Packet (cfg : GameConfig) where
  bytes : List UInt8
  saved : ∃ objects : Objects cfg, objects.Storable ∧ bytes = objects.bytes

/-- What `save_objects` writes for the content of a depot. -/
structure DepotStream (cfg : GameConfig) where
  bytes : List UInt8
  saved : ∃ objects : Objects cfg, objects.Storable ∧ bytes = objects.bytes ++ wordBytes 0xFFFF

section Saving

variable {world : World cfg} {kids : Object → List Object} {obj : Object} {fuel : Nat}
  {bytes : List UInt8}

/-- The packet of `send_mail`. -/
def Packet.ofObject (described : Described world kids) (orderly : Orderly world kids)
    (strings : StoredStrings world) (isLive : objectExists world obj = true)
    (movable : Movable (getObjectType world obj))
    (thing : (getObjectType world obj).isCreatureContainer = false)
    (saved : saveObjects world fuel obj true = .ok bytes) : Packet cfg where
  bytes := bytes
  saved := by
    rcases object_saved described orderly strings isLive movable thing saved with
      ⟨objects, storable, _, same⟩
    exact ⟨objects, storable, same⟩

/-- The stream of `save_depot`. -/
def DepotStream.ofContainer (described : Described world kids) (orderly : Orderly world kids)
    (strings : StoredStrings world) (isLive : objectExists world obj = true)
    (movable : Movable (getObjectType world obj))
    (saved : saveObjects world fuel (firstContent world obj) false = .ok bytes) :
    DepotStream cfg where
  bytes := bytes
  saved := by
    rcases content_saved described orderly strings isLive movable saved with
      ⟨objects, storable, _, same⟩
    exact ⟨objects, storable, same⟩

end Saving

structure Mail (cfg : GameConfig) where
  characterId : UInt32
  depotNumber : Int
  packet : Packet cfg

/-- `DEPOT_CHEST` is an object that can be moved. -/
structure SpecialObjects (cfg : GameConfig) where
  depotChest : ObjectType cfg
  movable : Movable depotChest

structure PlayerData (cfg : GameConfig) where
  characterId : UInt32
  locked : Nat
  depots : Fin 9 → Option (DepotStream cfg)
  dirty : Bool

theorem append_items (first second : Objects cfg) :
    (first.append second).items = first.items ++ second.items := by
  induction first with
  | nil => rfl
  | plain type attributes rest ih =>
    simp only [Objects.append, Objects.items, ih, cons_append, append_assoc]
  | holder type attributes content rest _ ih =>
    simp only [Objects.append, Objects.items, ih, cons_append, append_assoc]

theorem append_bytes (first second : Objects cfg) :
    (first.append second).bytes = first.bytes ++ second.bytes := by
  rw [Objects.bytes, append_items, items_bytes_append]
  rfl

theorem append_storable {first second : Objects cfg} (early : first.Storable)
    (late : second.Storable) : (first.append second).Storable := by
  induction first with
  | nil => exact late
  | plain type attributes rest ih => exact ⟨early.1, early.2.1, ih early.2.2⟩
  | holder type attributes content rest _ ih =>
    exact ⟨early.1, early.2.1, early.2.2.1, early.2.2.2.1, ih early.2.2.2.2⟩

def chestContent (special : SpecialObjects cfg) : Objects cfg := .plain special.depotChest [] .nil

theorem chest_storable (special : SpecialObjects cfg) : (chestContent special).Storable :=
  ⟨special.movable, fun _ member => absurd member not_mem_nil, trivial⟩

/-- The five bytes that are written behind the first packet of a new depot. -/
def emptyDepot (special : SpecialObjects cfg) : DepotStream cfg where
  bytes := wordBytes (UInt16.ofNat special.depotChest.typeID) ++ 0xFF :: wordBytes 0xFFFF
  saved := ⟨chestContent special, chest_storable special, rfl⟩

def DepotStream.splice (packet : Packet cfg) (depot : DepotStream cfg) : DepotStream cfg where
  bytes := packet.bytes ++ depot.bytes
  saved := by
    rcases packet.saved with ⟨parcel, proper, packetSame⟩
    rcases depot.saved with ⟨content, contentProper, depotSame⟩
    refine ⟨parcel.append content, append_storable proper contentProper, ?_⟩
    rw [packetSame, depotSame, append_bytes, append_assoc]

def Mail.depot (mail : Mail cfg) : Fin 9 :=
  if valid : 0 ≤ mail.depotNumber ∧ mail.depotNumber < 9 then ⟨mail.depotNumber.toNat, by omega⟩
  else 0

/-- What one turn of the loop of `send_mails` does for a mail of the player. -/
def deliver (special : SpecialObjects cfg) (data : PlayerData cfg) (mail : Mail cfg) :
    PlayerData cfg :=
  let old := (data.depots mail.depot).getD (emptyDepot special)
  { data with
    depots := Function.update data.depots mail.depot (some (old.splice mail.packet))
    dirty := true }

/-- The loop of `send_mails`; the entry behind the last mail, which it clears, is not read again. -/
def sendLoop (special : SpecialObjects cfg) :
    Nat → Nat → Counted (Mail cfg) → PlayerData cfg → Counted (Mail cfg) × PlayerData cfg
  | 0, _, mails, data => (mails, data)
  | turns + 1, index, mails, data =>
      if index < mails.count then
        let mail := mails.entry index
        if mail.characterId ≠ data.characterId then sendLoop special turns (index + 1) mails data
        else sendLoop special turns index (mails.swapAndPop index) (deliver special data mail)
      else (mails, data)

def sendMails (special : SpecialObjects cfg) (thread : Nat) (mails : Counted (Mail cfg))
    (data : PlayerData cfg) : Counted (Mail cfg) × PlayerData cfg :=
  if data.characterId = 0 then (mails, data)
  else if data.locked ≠ thread then (mails, data)
  else sendLoop special mails.count 0 mails data

variable {special : SpecialObjects cfg} {mails : Counted (Mail cfg)} {data : PlayerData cfg}

def addressed (data : PlayerData cfg) (mail : Mail cfg) : Bool :=
  decide (mail.characterId = data.characterId)

def forDepot (number : Fin 9) (mail : Mail cfg) : Bool := decide (mail.depot = number)

structure Sent (special : SpecialObjects cfg) (mails : Counted (Mail cfg)) (data : PlayerData cfg)
    (done : Counted (Mail cfg) × PlayerData cfg) (delivered : List (Mail cfg)) : Prop where
  each : mails.row.Perm (delivered ++ done.1.row)
  theirs : ∀ mail ∈ delivered, addressed data mail = true
  others : ∀ mail ∈ done.1.row, addressed data mail = false
  data : done.2 = delivered.foldl (deliver special) data

theorem sent_nothing (index : Nat) (last : mails.count ≤ index)
    (passed : ∀ place < index, place < mails.count → addressed data (mails.entry place) = false) :
    Sent special mails data (mails, data) [] where
  each := List.Perm.refl _
  theirs := fun _ member => absurd member not_mem_nil
  others := by
    intro mail member
    rcases mem_row.mp member with ⟨place, within, same⟩
    rw [← same]
    exact passed place (Nat.lt_of_lt_of_le within last) within
  data := rfl

theorem send_loop_sent (turns index : Nat) (enough : mails.count ≤ index + turns)
    (passed : ∀ place < index, place < mails.count → addressed data (mails.entry place) = false) :
    ∃ delivered, Sent special mails data (sendLoop special turns index mails data) delivered := by
  induction turns generalizing index mails data with
  | zero => exact ⟨[], sent_nothing index enough passed⟩
  | succ turns ih =>
    unfold sendLoop
    by_cases within : index < mails.count
    · rw [if_pos within]
      by_cases foreign : (mails.entry index).characterId ≠ data.characterId
      · rw [if_pos foreign]
        apply ih (index + 1) (by omega)
        intro place before inside
        by_cases here : place = index
        · rw [here]
          exact decide_eq_false foreign
        · exact passed place (by omega) inside
      rw [if_neg foreign]
      have fewer : (mails.swapAndPop index).count = mails.count - 1 := rfl
      have still : ∀ place < index, place < (mails.swapAndPop index).count →
          addressed (deliver special data (mails.entry index))
            ((mails.swapAndPop index).entry place) = false := by
        intro place before inside
        rw [popped_from, if_neg (Nat.ne_of_lt before)]
        exact passed place before (by omega)
      rcases ih index (by omega) still with ⟨delivered, sent⟩
      refine ⟨mails.entry index :: delivered, ?_, ?_, sent.others, sent.data⟩
      · exact (row_popped within).trans (sent.each.cons (mails.entry index))
      intro mail member
      rcases mem_cons.mp member with first | later
      · rw [first]
        exact decide_eq_true (not_not.mp foreign)
      · exact sent.theirs mail later
    rw [if_neg within]
    exact ⟨[], sent_nothing index (Nat.not_lt.mp within) passed⟩

theorem filter_all {choose : Mail cfg → Bool} {list : List (Mail cfg)} {value : Bool}
    (all : ∀ mail ∈ list, choose mail = value) :
    list.filter choose = if value then list else [] := by
  cases value with
  | true => exact filter_eq_self.mpr all
  | false =>
    apply filter_eq_nil_iff.mpr
    intro mail member
    rw [all mail member]
    decide

theorem Sent.rest {done : Counted (Mail cfg) × PlayerData cfg} {delivered : List (Mail cfg)}
    (sent : Sent special mails data done delivered) :
    done.1.row.Perm (mails.row.filter fun mail => !addressed data mail) := by
  have split := sent.each.filter fun mail => !addressed data mail
  have none_theirs : ∀ mail ∈ delivered, (!addressed data mail) = false := by
    intro mail member
    rw [sent.theirs mail member]
    rfl
  have all_others : ∀ mail ∈ done.1.row, (!addressed data mail) = true := by
    intro mail member
    rw [sent.others mail member]
    rfl
  rw [filter_append, filter_all none_theirs, filter_all all_others] at split
  exact split.symm

theorem Sent.taken {done : Counted (Mail cfg) × PlayerData cfg} {delivered : List (Mail cfg)}
    (sent : Sent special mails data done delivered) :
    delivered.Perm (mails.row.filter (addressed data)) := by
  have split := sent.each.filter (addressed data)
  rw [filter_append, filter_all sent.theirs, filter_all sent.others] at split
  have whole : delivered ++ [] = delivered := append_nil delivered
  exact whole ▸ split.symm

section Depots

variable {number : Fin 9} {delivered : List (Mail cfg)}

theorem deliver_here (mail : Mail cfg) :
    (deliver special data mail).depots mail.depot =
      some (((data.depots mail.depot).getD (emptyDepot special)).splice mail.packet) :=
  Function.update_self _ _ _

theorem deliver_elsewhere {mail : Mail cfg} (other : number ≠ mail.depot) :
    (deliver special data mail).depots number = data.depots number :=
  Function.update_of_ne other _ _

/-- The stream of a depot after deliveries: the last packet is the first. -/
def streamAfter (special : SpecialObjects cfg) (old : Option (DepotStream cfg))
    (packets : List (Packet cfg)) : Option (DepotStream cfg) :=
  packets.foldl (fun stream packet => some ((stream.getD (emptyDepot special)).splice packet)) old

theorem delivered_depots (delivered : List (Mail cfg)) (data : PlayerData cfg) (number : Fin 9) :
    (delivered.foldl (deliver special) data).depots number =
      streamAfter special (data.depots number)
        ((delivered.filter (forDepot number)).map Mail.packet) := by
  induction delivered generalizing data with
  | nil => rfl
  | cons mail rest ih =>
    rw [foldl_cons, ih]
    by_cases here : mail.depot = number
    · have chosen : forDepot number mail = true := decide_eq_true here
      have first := @deliver_here cfg special data mail
      rw [here] at first
      rw [filter_cons_of_pos chosen, map_cons, first]
      rfl
    have passed : ¬forDepot number mail = true := fun chosen => here (of_decide_eq_true chosen)
    rw [filter_cons_of_neg passed, deliver_elsewhere fun same => here same.symm]

/-- These are the objects of a depot, if it is new one empty chest. -/
def Contents (special : SpecialObjects cfg) (depot : Option (DepotStream cfg))
    (objects : Objects cfg) : Prop :=
  objects.Storable ∧ (depot.getD (emptyDepot special)).bytes = objects.bytes ++ wordBytes 0xFFFF

def Parcels (packets : List (Packet cfg)) (parcels : List (Objects cfg)) : Prop :=
  List.Forall₂ (fun packet parcel => parcel.Storable ∧ packet.bytes = parcel.bytes) packets parcels

def joined (parcels : List (Objects cfg)) (old : Objects cfg) : Objects cfg :=
  parcels.foldl (fun objects parcel => parcel.append objects) old

theorem stream_after_contents {packets : List (Packet cfg)} {parcels : List (Objects cfg)}
    {old : Option (DepotStream cfg)} {content : Objects cfg} (contents : Contents special old content)
    (saved : Parcels packets parcels) :
    Contents special (streamAfter special old packets) (joined parcels content) := by
  induction saved generalizing old content with
  | nil => exact contents
  | @cons packet parcel packets parcels first _ ih =>
    apply ih
    refine ⟨append_storable first.1 contents.1, ?_⟩
    rw [Option.getD_some, append_bytes, append_assoc, ← contents.2, ← first.2]
    rfl

end Depots

/-- `load_objects` puts these objects, each once and in this order, behind the content of a
container. -/
def Loads (stream : List UInt8) (objects : Objects cfg) : Prop :=
  ∀ (world : World cfg) (kids : Object → List Object) (con : Object) (fuel : Nat),
    Described world kids → Holder world con → objects.items.length < fuel →
      loadObjects fuel world stream con =
          (build objects world con).map (fun world => (world, [])) ∧
        ∀ after, build objects world con = .ok after →
          ∃ newKids roots, Built world kids con objects after newKids roots

theorem contents_load {depot : Option (DepotStream cfg)} {objects : Objects cfg}
    (contents : Contents special depot objects) :
    Loads (depot.getD (emptyDepot special)).bytes objects := by
  intro world kids con fuel described holder enough
  constructor
  · have loads := @load_objects_builds cfg world kids con [] objects fuel described holder
      contents.1 enough
    rw [contents.2]
    exact loads
  · intro after built
    exact build_built described holder contents.1 built

/-- The other mails stay, each once; the objects of the removed ones are in front of the old content
of their depots, each once. -/
def Conserves (special : SpecialObjects cfg) (mails : Counted (Mail cfg)) (data : PlayerData cfg)
    (done : Counted (Mail cfg) × PlayerData cfg) : Prop :=
  done.1.row.Perm (mails.row.filter fun mail => !addressed data mail) ∧
    ∀ number, ∃ delivered,
      delivered.Perm (mails.row.filter fun mail => forDepot number mail && addressed data mail) ∧
      (delivered = [] → done.2.depots number = data.depots number) ∧
      (delivered ≠ [] → (done.2.depots number).isSome = true) ∧
      (∃ parcels old, Parcels (delivered.map Mail.packet) parcels ∧
        Contents special (data.depots number) old) ∧
      ∀ parcels old, Parcels (delivered.map Mail.packet) parcels →
        Contents special (data.depots number) old →
          Loads ((done.2.depots number).getD (emptyDepot special)).bytes (joined parcels old)

theorem parcels_exist (packets : List (Packet cfg)) : ∃ parcels, Parcels packets parcels := by
  induction packets with
  | nil => exact ⟨[], .nil⟩
  | cons packet rest ih =>
    rcases ih with ⟨parcels, saved⟩
    rcases packet.saved with ⟨parcel, proper⟩
    exact ⟨parcel :: parcels, .cons proper saved⟩

theorem stream_after_some {packets : List (Packet cfg)} (nonempty : packets ≠ [])
    (old : Option (DepotStream cfg)) : (streamAfter special old packets).isSome = true := by
  induction packets generalizing old with
  | nil => exact absurd rfl nonempty
  | cons packet rest ih =>
    cases rest with
    | nil => rfl
    | cons next others => exact ih (cons_ne_nil _ _) _

theorem mails_conserved {thread : Nat} (special : SpecialObjects cfg) (mails : Counted (Mail cfg))
    (data : PlayerData cfg) (occupied : data.characterId ≠ 0) (locked : data.locked = thread) :
    Conserves special mails data (sendMails special thread mails data) := by
  have start : ∀ place < 0, place < mails.count → addressed data (mails.entry place) = false :=
    fun place before => absurd before (Nat.not_lt_zero place)
  rcases @send_loop_sent cfg special mails data mails.count 0 (by omega) start with
    ⟨delivered, sent⟩
  rw [sendMails, if_neg occupied, if_neg (not_not.mpr locked)]
  refine ⟨sent.rest, ?_⟩
  intro number
  have depot : (sendLoop special mails.count 0 mails data).2.depots number = streamAfter special
      (data.depots number)
      ((delivered.filter (forDepot number)).map Mail.packet) := by
    rw [sent.data, delivered_depots]
  refine ⟨delivered.filter (forDepot number), ?_, ?_, ?_, ?_, ?_⟩
  · rw [← filter_filter]
    exact sent.taken.filter (forDepot number)
  · intro nothing
    rw [depot, nothing]
    rfl
  · intro something
    rw [depot]
    exact stream_after_some (fun nothing => something (map_eq_nil_iff.mp nothing)) _
  · rcases parcels_exist ((delivered.filter (forDepot number)).map Mail.packet) with ⟨parcels, saved⟩
    rcases ((data.depots number).getD (emptyDepot special)).saved with ⟨old, contents⟩
    exact ⟨parcels, old, saved, contents⟩
  · intro parcels old saved contents
    rw [depot]
    exact contents_load (stream_after_contents contents saved)

def scroll : Objects scrollTypes := .plain ⟨101, scroll_known⟩ [] .nil

theorem scroll_storable : scroll.Storable :=
  ⟨show 10 < 101 by decide, fun _ member => absurd member not_mem_nil, trivial⟩

def scrollMail : Mail scrollTypes := ⟨7, 2, scroll.bytes, scroll, scroll_storable, rfl⟩

def scrollPlayer : PlayerData scrollTypes := ⟨7, 1, fun _ => none, false⟩

theorem bag_movable : Movable (⟨100, bag_known⟩ : ObjectType scrollTypes) :=
  show 10 < 100 by decide

def bagChest : SpecialObjects scrollTypes := ⟨⟨100, bag_known⟩, bag_movable⟩

theorem scroll_mail_conserved :
    Conserves bagChest ⟨fun _ => scrollMail, 1⟩ scrollPlayer
      (sendMails bagChest 1 ⟨fun _ => scrollMail, 1⟩ scrollPlayer) :=
  mails_conserved bagChest ⟨fun _ => scrollMail, 1⟩ scrollPlayer (by decide) rfl

section Depots

variable {world : World cfg} {kids : Object → List Object} {obj : Object} {fuel : Nat}
  {bytes : List UInt8}

end Depots

def worldOf (result : Except Halt (Object × World cfg)) (old : World cfg) : World cfg :=
  match result with
  | .ok made => made.2
  | .error _ => old

def fieldWorld : World scrollTypes := worldOf (createMapCon (initialWorld _) 0 0 7) (initialWorld _)

def bagWorld : World scrollTypes :=
  worldOf (appendObject fieldWorld ⟨1⟩ ⟨100, bag_known⟩) fieldWorld

def filledWorld : World scrollTypes :=
  worldOf (appendObject bagWorld ⟨2⟩ ⟨101, scroll_known⟩) bagWorld

end TibiaGame.MailDelivery
