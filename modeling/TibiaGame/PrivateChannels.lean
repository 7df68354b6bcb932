import TibiaGame.Library.CountedArray

/-!
# Private channels

The channels of `operate.cpp` from number 8 on are opened by a player, who moderates them
and invites others. A channel is closed when its moderator is set to 0; its slot is used
again, with whatever its arrays still hold. What the server knows of the players at the
time of a call is an argument of the call. Messages to clients are not modelled.
-/

namespace TibiaGame.PrivateChannels

open Library.CountedArray Function

def firstPrivateChannel : Int := 8

def maxChannels : Int := 0xFFFF

structure Channel where
  moderator : UInt32
  moderatorName : String
  subscriber : Counted UInt32
  invitedPlayer : Counted UInt32

structure Channels where
  channelArray : Int → Channel
  channels : Int

inductive Right where
  | premiumAccount
  | readGamemasterChannel
  | readTutorChannel

structure Player where
  name : String
  guild : String

/-- The results of `identify_player`. -/
inductive Identified where
  | found (characterID : UInt32)
  | notOnline
  | ambiguous

structure Surroundings where
  players : UInt32 → Option Player
  checkRight : UInt32 → Right → Bool
  identifyPlayer : String → Bool → Identified
  getCharacterID : String → UInt32

def getPlayer (around : Surroundings) (characterID : UInt32) : Option Player :=
  if characterID = 0 then none else around.players characterID

inductive Refusal where
  | error
  | noPremiumAccount
  | playerNotExisting
  | nameAmbiguous
  | notAccessible

def unused : Counted UInt32 := ⟨fun _ => 0, 0⟩

def newChannel : Channel := ⟨0, "", unused, unused⟩

def noChannels : Channels := ⟨fun _ => newChannel, firstPrivateChannel⟩

def setChannel (world : Channels) (channelID : Int) (channel : Channel) : Channels :=
  { world with channelArray := Function.update world.channelArray channelID channel }

def channelActive (world : Channels) (channelID : Int) : Bool :=
  if channelID < 0 ∨ world.channels ≤ channelID then false
  else decide (channelID < firstPrivateChannel) || (world.channelArray channelID).moderator != 0

def channelAvailable (around : Surroundings) (world : Channels) (channelID : Int)
    (characterID : UInt32) : Bool :=
  if !channelActive world channelID then false
  else
    match getPlayer around characterID with
    | none => false
    | some player =>
        match channelID with
        | 0 => player.guild != ""
        | 1 => around.checkRight characterID .readGamemasterChannel
        | 2 => around.checkRight characterID .readTutorChannel
        | 3 => around.checkRight characterID .readGamemasterChannel
        | 4 | 5 | 6 | 7 => true
        | channelID =>
            if firstPrivateChannel ≤ channelID then
              let channel := world.channelArray channelID
              channel.moderator == characterID || channel.invitedPlayer.contains characterID
            else false

def channelSubscribed (world : Channels) (channelID : Int) (characterID : UInt32) : Bool :=
  if !channelActive world channelID then false
  else (world.channelArray channelID).subscriber.contains characterID

/-- The loops over the private channels; the number of channels when none passes the test. -/
def firstPrivate (world : Channels) (test : Channel → Bool) : Int :=
  firstPrivateChannel + ((List.range (world.channels - firstPrivateChannel).toNat).findIdx
    fun steps : Nat => test (world.channelArray (firstPrivateChannel + steps)) : Nat)

/-- Whose name was given to `invite_to_channel` or `exclude_from_channel`. -/
def otherID (around : Surroundings) (characterID : UInt32) (name : String) : Except Refusal UInt32 :=
  match around.identifyPlayer name (!around.checkRight characterID .readGamemasterChannel) with
  | .found other => .ok other
  | .notOnline =>
      if around.getCharacterID name = 0 then .error .playerNotExisting
      else .ok (around.getCharacterID name)
  | .ambiguous =>
      if around.getCharacterID name = 0 then .error .nameAmbiguous
      else .ok (around.getCharacterID name)

def openChannel (around : Surroundings) (world : Channels) (characterID : UInt32) :
    Except Refusal Channels :=
  match getPlayer around characterID with
  | none => .error .error
  | some player =>
      if maxChannels ≤ world.channels then .error .error
      else if !around.checkRight characterID .premiumAccount then .error .noPremiumAccount
      else if firstPrivate world (fun channel => channel.moderator == characterID) < world.channels
      then .ok world
      else
        let channelID := firstPrivate world fun channel => channel.moderator == 0
        let channel := world.channelArray channelID
        let opened : Channel :=
          { moderator := characterID
            moderatorName := player.name
            subscriber := ⟨Function.update channel.subscriber.entry 0 characterID, 1⟩
            invitedPlayer := { channel.invitedPlayer with count := 0 } }
        .ok { setChannel world channelID opened with
          channels := if channelID = world.channels then world.channels + 1 else world.channels }

def closeChannel (world : Channels) (channelID : Int) : Channels :=
  if channelID < firstPrivateChannel ∨ world.channels ≤ channelID then world
  else
    let channel := world.channelArray channelID
    if channel.moderator = 0 then world
    else setChannel world channelID { channel with moderator := 0 }

def leaveChannel (world : Channels) (channelID : Int) (characterID : UInt32) (close : Bool) :
    Channels :=
  if !channelActive world channelID then world
  else
    let channel := world.channelArray channelID
    let subscriber := channel.subscriber.remove characterID
    let subscriber :=
      if close && characterID == channel.moderator then { subscriber with count := 0 }
      else subscriber
    let world := setChannel world channelID { channel with subscriber := subscriber }
    if firstPrivateChannel ≤ channelID ∧ subscriber.count = 0 then closeChannel world channelID
    else world

def inviteToChannel (around : Surroundings) (world : Channels) (characterID : UInt32)
    (name : String) : Except Refusal Channels :=
  match getPlayer around characterID with
  | none => .ok world
  | some _ =>
      let channelID := firstPrivate world fun channel => channel.moderator == characterID
      if world.channels ≤ channelID then .ok world
      else
        (otherID around characterID name).map fun other =>
          let channel := world.channelArray channelID
          if characterID = other then world
          else if channel.invitedPlayer.contains other then world
          else setChannel world channelID
            { channel with invitedPlayer := channel.invitedPlayer.add other }

def excludeFromChannel (around : Surroundings) (world : Channels) (characterID : UInt32)
    (name : String) : Except Refusal Channels :=
  match getPlayer around characterID with
  | none => .ok world
  | some _ =>
      let channelID := firstPrivate world fun channel => channel.moderator == characterID
      if world.channels ≤ channelID then .ok world
      else
        (otherID around characterID name).map fun other =>
          let channel := world.channelArray channelID
          if characterID = other then world
          else if channel.invitedPlayer.contains other then
            let world := setChannel world channelID
              { channel with invitedPlayer := channel.invitedPlayer.remove other }
            if channelSubscribed world channelID other then leaveChannel world channelID other false
            else world
          else world

/-- The result tells whether the player moderates the channel. -/
def joinChannel (around : Surroundings) (world : Channels) (channelID : Int) (characterID : UInt32) :
    Except Refusal (Bool × Channels) :=
  if !channelActive world channelID then .error .error
  else if !channelAvailable around world channelID characterID then .error .notAccessible
  else
    let channel := world.channelArray channelID
    let joined :=
      if channelSubscribed world channelID characterID then world
      else setChannel world channelID { channel with subscriber := channel.subscriber.add characterID }
    .ok (characterID == channel.moderator, joined)

def leaveAllChannels (world : Channels) (characterID : UInt32) : Channels :=
  (List.range world.channels.toNat).foldl (fun (world : Channels) (channelID : Nat) =>
    if channelActive world channelID then leaveChannel world channelID characterID false else world)
    world

inductive Call where
  | openChannel (characterID : UInt32)
  | inviteToChannel (characterID : UInt32) (name : String)
  | excludeFromChannel (characterID : UInt32) (name : String)
  | joinChannel (channelID : Int) (characterID : UInt32)
  | leaveChannel (channelID : Int) (characterID : UInt32) (close : Bool)
  | leaveAllChannels (characterID : UInt32)

def call (around : Surroundings) (world : Channels) : Call → Except Refusal Channels
  | .openChannel characterID => openChannel around world characterID
  | .inviteToChannel characterID name => inviteToChannel around world characterID name
  | .excludeFromChannel characterID name => excludeFromChannel around world characterID name
  | .joinChannel channelID characterID => (joinChannel around world channelID characterID).map Prod.snd
  | .leaveChannel channelID characterID close => .ok (leaveChannel world channelID characterID close)
  | .leaveAllChannels characterID => .ok (leaveAllChannels world characterID)

def step (world : Channels) (request : Surroundings × Call) : Channels :=
  match call request.1 world request.2 with
  | .ok after => after
  | .error _ => world

def run (requests : List (Surroundings × Call)) : Channels := requests.foldl step noChannels

variable {world : Channels} {channelID : Int} {channel : Channel} {characterID : UInt32}
  {around : Surroundings}

/-- What holds of one channel; the last two only of a private one. -/
structure ChannelOrderly (isPrivate : Prop) (channel : Channel) : Prop where
  distinct : channel.subscriber.Distinct
  invitedOnce : channel.invitedPlayer.Distinct
  admitted : isPrivate → channel.moderator ≠ 0 → ∀ subscriber, channel.subscriber.Has subscriber →
    subscriber = channel.moderator ∨ channel.invitedPlayer.Has subscriber
  closed : isPrivate → channel.moderator = 0 → channel.subscriber.count = 0

structure Orderly (world : Channels) : Prop where
  publicKept : firstPrivateChannel ≤ world.channels
  each : ∀ channelID, 0 ≤ channelID → channelID < world.channels →
    ChannelOrderly (firstPrivateChannel ≤ channelID) (world.channelArray channelID)
  one : ∀ left, firstPrivateChannel ≤ left → left < world.channels →
    ∀ right, firstPrivateChannel ≤ right → right < world.channels →
      (world.channelArray left).moderator ≠ 0 →
      (world.channelArray left).moderator = (world.channelArray right).moderator → left = right

section Channels

theorem set_channel_self : (setChannel world channelID channel).channelArray channelID = channel :=
  update_self _ _ _

theorem set_channel_other {other : Int} (different : other ≠ channelID) :
    (setChannel world channelID channel).channelArray other = world.channelArray other :=
  update_of_ne different _ _

theorem active_within (active : channelActive world channelID = true) :
    0 ≤ channelID ∧ channelID < world.channels ∧
      (firstPrivateChannel ≤ channelID → (world.channelArray channelID).moderator ≠ 0) := by
  rw [channelActive] at active
  split_ifs at active with outside
  rw [not_or, not_lt, not_le] at outside
  refine ⟨outside.1, outside.2, ?_⟩
  intro isPrivate
  rw [Bool.or_eq_true] at active
  rcases active with isPublic | moderated
  · exact absurd (of_decide_eq_true isPublic) (not_lt.mpr isPrivate)
  · exact bne_iff_ne.mp moderated

theorem moderated_active (isPrivate : firstPrivateChannel ≤ channelID)
    (inside : channelID < world.channels)
    (moderated : (world.channelArray channelID).moderator ≠ 0) :
    channelActive world channelID = true := by
  have positive : (0 : Int) ≤ firstPrivateChannel := by decide
  have within : ¬ (channelID < 0 ∨ world.channels ≤ channelID) := by omega
  rw [channelActive, if_neg within, Bool.or_eq_true]
  exact Or.inr (bne_iff_ne.mpr moderated)

theorem first_private_spec (world : Channels) (test : Channel → Bool)
    (enough : firstPrivateChannel ≤ world.channels) :
    firstPrivateChannel ≤ firstPrivate world test ∧ firstPrivate world test ≤ world.channels ∧
      (firstPrivate world test < world.channels →
        test (world.channelArray (firstPrivate world test)) = true) ∧
      (world.channels ≤ firstPrivate world test → ∀ channelID, firstPrivateChannel ≤ channelID →
        channelID < world.channels → test (world.channelArray channelID) = false) := by
  have isFound : firstPrivate world test = firstPrivateChannel +
      ((List.range (world.channels - firstPrivateChannel).toNat).findIdx
        fun steps : Nat => test (world.channelArray (firstPrivateChannel + steps)) : Nat) := rfl
  generalize isTest : (fun steps : Nat => test (world.channelArray (firstPrivateChannel + steps))) =
    check at isFound
  have bound : (List.range (world.channels - firstPrivateChannel).toNat).findIdx check ≤
      (List.range (world.channels - firstPrivateChannel).toNat).length := List.findIdx_le_length
  have length : (List.range (world.channels - firstPrivateChannel).toNat).length =
      (world.channels - firstPrivateChannel).toNat := List.length_range
  refine ⟨by omega, by omega, ?_, ?_⟩
  · intro inside
    have within : (List.range (world.channels - firstPrivateChannel).toNat).findIdx check <
        (List.range (world.channels - firstPrivateChannel).toNat).length := by omega
    have passed := List.findIdx_getElem (w := within)
    rw [List.getElem_range, ← isTest] at passed
    exact passed
  intro beyond channelID isPrivate inside
  have all : (List.range (world.channels - firstPrivateChannel).toNat).findIdx check =
      (List.range (world.channels - firstPrivateChannel).toNat).length := by omega
  have failed := List.findIdx_eq_length.mp all (channelID - firstPrivateChannel).toNat
    (List.mem_range.mpr (by omega))
  have back : firstPrivateChannel + ((channelID - firstPrivateChannel).toNat : Int) = channelID := by
    omega
  rw [← isTest] at failed
  simp only [back] at failed
  exact failed

theorem set_orderly {count : Int} (orderly : Orderly world)
    (here : firstPrivateChannel ≤ count) (grown : ∀ other, 0 ≤ other → other < count →
      other ≠ channelID → other < world.channels)
    (fine : ChannelOrderly (firstPrivateChannel ≤ channelID) channel)
    (alone : firstPrivateChannel ≤ channelID → channel.moderator ≠ 0 → ∀ other,
      firstPrivateChannel ≤ other → other < world.channels → other ≠ channelID →
        (world.channelArray other).moderator ≠ channel.moderator) :
    Orderly { setChannel world channelID channel with channels := count } := by
  constructor
  · exact here
  · intro other low high
    by_cases same : other = channelID
    · rw [same, set_channel_self]
      exact fine
    rw [set_channel_other same]
    exact orderly.each other low (grown other low high same)
  · intro left leftLow leftHigh right rightLow rightHigh moderated same
    have positive : (0 : Int) ≤ firstPrivateChannel := by decide
    by_cases leftHere : left = channelID
    · by_cases rightHere : right = channelID
      · rw [leftHere, rightHere]
      rw [leftHere, set_channel_self] at moderated same
      rw [set_channel_other rightHere] at same
      have apart := alone (leftHere ▸ leftLow) moderated right rightLow
        (grown right (positive.trans rightLow) rightHigh rightHere) rightHere
      exact absurd same.symm apart
    rw [set_channel_other leftHere] at moderated same
    have leftOld := grown left (positive.trans leftLow) leftHigh leftHere
    by_cases rightHere : right = channelID
    · rw [rightHere, set_channel_self] at same
      rw [same] at moderated
      exact absurd same (alone (rightHere ▸ rightLow) moderated left leftLow leftOld leftHere)
    rw [set_channel_other rightHere] at same
    exact orderly.one left leftLow leftOld right rightLow
      (grown right (positive.trans rightLow) rightHigh rightHere) moderated same

theorem kept_orderly (orderly : Orderly world) (high : channelID < world.channels)
    (fine : ChannelOrderly (firstPrivateChannel ≤ channelID) channel)
    (moderator : channel.moderator = 0 ∨
      channel.moderator = (world.channelArray channelID).moderator) :
    Orderly (setChannel world channelID channel) := by
  apply set_orderly orderly orderly.publicKept _ fine
  · intro isPrivate moderated other otherPrivate within different same
    rcases moderator with closed | kept
    · exact moderated closed
    rw [kept] at moderated same
    exact different (orderly.one channelID isPrivate high other otherPrivate within moderated
      same.symm).symm
  · intro other _ within _
    exact within

theorem close_orderly (orderly : Orderly world)
    (empty : firstPrivateChannel ≤ channelID →
      (world.channelArray channelID).subscriber.count = 0) :
    Orderly (closeChannel world channelID) := by
  rw [closeChannel]
  simp only
  split_ifs with outside
  · exact orderly
  · exact orderly
  · rw [not_or, not_lt, not_le] at outside
    have positive : (0 : Int) ≤ firstPrivateChannel := by decide
    have old := orderly.each channelID (positive.trans outside.1) outside.2
    apply kept_orderly orderly outside.2
    · constructor
      · exact old.distinct
      · exact old.invitedOnce
      · intro _ moderated
        exact absurd rfl moderated
      · intro isPrivate _
        exact empty isPrivate
    · exact Or.inl rfl

theorem set_channel_twice (first second : Channel) :
    setChannel (setChannel world channelID first) channelID second =
      setChannel world channelID second := by
  rw [setChannel, setChannel, setChannel, update_idem]

theorem set_channel_same : setChannel world channelID (world.channelArray channelID) = world := by
  rw [setChannel, update_eq_self]

/-- A channel in which only the player who leaves may be a subscriber too many. -/
theorem leave_set_orderly (characterID : UInt32) (orderly : Orderly world) (close : Bool)
    (active : channelActive (setChannel world channelID channel) channelID = true)
    (moderator : channel.moderator = (world.channelArray channelID).moderator)
    (distinct : channel.subscriber.Distinct) (invitedOnce : channel.invitedPlayer.Distinct)
    (admitted : firstPrivateChannel ≤ channelID → channel.moderator ≠ 0 → ∀ subscriber,
      channel.subscriber.Has subscriber → subscriber ≠ characterID →
        subscriber = channel.moderator ∨ channel.invitedPlayer.Has subscriber) :
    Orderly (leaveChannel (setChannel world channelID channel) channelID characterID close) := by
  rcases active_within active with ⟨low, high, moderated⟩
  rw [set_channel_self] at moderated
  rw [leaveChannel, active, set_channel_self]
  simp only [Bool.not_true, Bool.false_eq_true, if_false, set_channel_twice]
  generalize isLeft : (if (close && characterID == channel.moderator) = true then
      { channel.subscriber.remove characterID with count := 0 }
    else channel.subscriber.remove characterID) = left
  have fewer : left.Distinct ∧ ∀ subscriber, left.Has subscriber →
      channel.subscriber.Has subscriber ∧ subscriber ≠ characterID := by
    rw [← isLeft]
    split_ifs with closes
    · exact ⟨distinct_nothing rfl, fun subscriber has => (has_nothing rfl has).elim⟩
    · exact ⟨distinct_remove distinct, fun subscriber has => (has_remove distinct).mp has⟩
  have written : Orderly (setChannel world channelID { channel with subscriber := left }) := by
    apply kept_orderly orderly high
    · constructor
      · exact fewer.1
      · exact invitedOnce
      · intro isPrivate here subscriber has
        have before := fewer.2 subscriber has
        exact admitted isPrivate here subscriber before.1 before.2
      · intro isPrivate closed
        exact absurd closed (moderated isPrivate)
    · exact Or.inr moderator
  split_ifs with empty
  · apply close_orderly written
    intro _
    rw [set_channel_self]
    exact empty.2
  · exact written

theorem leave_orderly (orderly : Orderly world) (characterID : UInt32) (close : Bool) :
    Orderly (leaveChannel world channelID characterID close) := by
  rcases active : channelActive world channelID with _ | _
  · rw [leaveChannel, active]
    exact orderly
  rcases active_within active with ⟨low, high, _⟩
  have old := orderly.each channelID low high
  have same : setChannel world channelID (world.channelArray channelID) = world :=
    set_channel_same
  rw [← same] at active
  have left := leave_set_orderly characterID orderly close active rfl
    old.distinct old.invitedOnce
    fun isPrivate here subscriber has _ => old.admitted isPrivate here subscriber has
  rw [same] at left
  exact left

theorem leave_all_orderly (orderly : Orderly world) (characterID : UInt32) :
    Orderly (leaveAllChannels world characterID) := by
  rw [leaveAllChannels]
  generalize List.range world.channels.toNat = numbers
  induction numbers generalizing world with
  | nil => exact orderly
  | cons number numbers ih =>
    rw [List.foldl_cons]
    apply ih
    split_ifs
    · exact leave_orderly orderly characterID false
    · exact orderly

theorem available_admits (isPrivate : firstPrivateChannel ≤ channelID)
    (available : channelAvailable around world channelID characterID = true) :
    characterID = (world.channelArray channelID).moderator ∨
      (world.channelArray channelID).invitedPlayer.Has characterID := by
  rw [channelAvailable] at available
  rcases active : channelActive world channelID with _ | _
  · rw [active] at available
    cases available
  simp only [active, Bool.not_true, Bool.false_eq_true, if_false] at available
  rcases known : getPlayer around characterID with _ | player
  · rw [known] at available
    cases available
  simp only [known] at available
  split at available
  all_goals first
    | exact absurd isPrivate (by decide)
    | skip
  simp only [if_pos isPrivate, Bool.or_eq_true] at available
  rcases available with moderates | invited
  · exact Or.inl (beq_iff_eq.mp moderates).symm
  · exact Or.inr (contains_iff.mp invited)

variable (orderly : Orderly world)
include orderly

theorem join_orderly {result : Bool × Channels}
    (joins : joinChannel around world channelID characterID = .ok result) : Orderly result.2 := by
  rw [joinChannel] at joins
  rcases active : channelActive world channelID with _ | _
  · rw [active] at joins
    cases joins
  rcases available : channelAvailable around world channelID characterID with _ | _
  · rw [active, available] at joins
    cases joins
  rw [active, available] at joins
  cases joins
  split_ifs with already
  · exact orderly
  rcases active_within active with ⟨low, high, moderated⟩
  have old := orderly.each channelID low high
  rw [channelSubscribed, active] at already
  have absent : ¬ (world.channelArray channelID).subscriber.Has characterID := by
    intro has
    exact already (contains_iff.mpr has)
  apply kept_orderly orderly high
  · constructor
    · exact distinct_add old.distinct absent
    · exact old.invitedOnce
    · intro isPrivate here subscriber has
      rcases has_add.mp has with before | joined
      · exact old.admitted isPrivate here subscriber before
      rw [joined]
      exact available_admits isPrivate available
    · intro isPrivate closed
      exact absurd closed (moderated isPrivate)
  · exact Or.inr rfl

theorem own_channel (inside : firstPrivate world
      (fun channel => channel.moderator == characterID) < world.channels) :
    let channelID := firstPrivate world fun channel => channel.moderator == characterID
    ChannelOrderly (firstPrivateChannel ≤ channelID) (world.channelArray channelID) ∧
      firstPrivateChannel ≤ channelID ∧ (world.channelArray channelID).moderator = characterID := by
  rcases first_private_spec world (fun channel => channel.moderator == characterID)
    orderly.publicKept with ⟨low, _, found, _⟩
  have positive : (0 : Int) ≤ firstPrivateChannel := by decide
  exact ⟨orderly.each _ (positive.trans low) inside, low, beq_iff_eq.mp (found inside)⟩

theorem invite_orderly {name : String} {after : Channels}
    (invites : inviteToChannel around world characterID name = .ok after) : Orderly after := by
  rw [inviteToChannel] at invites
  rcases known : getPlayer around characterID with _ | player
  · rw [known] at invites
    cases invites
    exact orderly
  simp only [known] at invites
  split_ifs at invites with outside
  · cases invites
    exact orderly
  have inside := not_le.mp outside
  rcases own_channel orderly inside with ⟨old, _, _⟩
  rcases found : otherID around characterID name with refusal | other
  · rw [found] at invites
    cases invites
  rw [found] at invites
  cases invites
  simp only
  split_ifs with self already
  · exact orderly
  · exact orderly
  · apply kept_orderly orderly inside
    · constructor
      · exact old.distinct
      · exact distinct_add old.invitedOnce fun has => already (contains_iff.mpr has)
      · intro isPrivate here subscriber has
        rcases old.admitted isPrivate here subscriber has with moderates | invited
        · exact Or.inl moderates
        · exact Or.inr (has_add.mpr (Or.inl invited))
      · exact old.closed
    · exact Or.inr rfl

/-- While a player is taken out of both lists the channel may hold a subscriber too many. -/
theorem exclude_orderly {name : String} {after : Channels}
    (excludes : excludeFromChannel around world characterID name = .ok after) : Orderly after := by
  rw [excludeFromChannel] at excludes
  rcases known : getPlayer around characterID with _ | player
  · rw [known] at excludes
    cases excludes
    exact orderly
  simp only [known] at excludes
  split_ifs at excludes with outside
  · cases excludes
    exact orderly
  have inside := not_le.mp outside
  rcases own_channel orderly inside with ⟨old, isPrivate, moderates⟩
  rcases found : otherID around characterID name with refusal | other
  · rw [found] at excludes
    cases excludes
  rw [found] at excludes
  cases excludes
  simp only
  generalize firstPrivate world (fun channel => channel.moderator == characterID) =
    channelID at inside old isPrivate moderates ⊢
  have kept : ∀ subscriber, (world.channelArray channelID).moderator ≠ 0 →
      (world.channelArray channelID).subscriber.Has subscriber → subscriber ≠ other →
      subscriber = (world.channelArray channelID).moderator ∨
        ((world.channelArray channelID).invitedPlayer.remove other).Has subscriber := by
    intro subscriber here has different
    rcases old.admitted isPrivate here subscriber has with moderates | invited
    · exact Or.inl moderates
    · exact Or.inr ((has_remove old.invitedOnce).mpr ⟨invited, different⟩)
  split_ifs with self invited subscribed
  · exact orderly
  · apply leave_set_orderly other orderly false
    · rw [channelSubscribed] at subscribed
      split_ifs at subscribed with active
      simpa using active
    · rfl
    · exact old.distinct
    · exact distinct_remove old.invitedOnce
    · intro _ here subscriber has different
      exact kept subscriber here has different
  · apply kept_orderly orderly inside
    · constructor
      · exact old.distinct
      · exact distinct_remove old.invitedOnce
      · intro _ here subscriber has
        apply kept subscriber here has
        intro same
        rw [same] at has
        apply subscribed
        have active : channelActive (setChannel world channelID
            { world.channelArray channelID with
              invitedPlayer := (world.channelArray channelID).invitedPlayer.remove other })
            channelID = true := by
          apply moderated_active isPrivate
          · exact inside
          · rw [set_channel_self]
            exact here
        rw [channelSubscribed, active, set_channel_self]
        exact contains_iff.mpr has
      · exact old.closed
    · exact Or.inr rfl
  · exact orderly

/-- A player opens a channel only without one, and in a slot that is closed. -/
theorem open_orderly {after : Channels} (opens : openChannel around world characterID = .ok after) :
    Orderly after := by
  rw [openChannel] at opens
  rcases known : getPlayer around characterID with _ | player
  · rw [known] at opens
    cases opens
  simp only [known] at opens
  generalize isCount : (if firstPrivate world (fun channel => channel.moderator == 0) =
    world.channels then world.channels + 1 else world.channels) = count at opens
  split_ifs at opens with full noPremium own
  · cases opens
    exact orderly
  cases opens
  rcases first_private_spec world (fun channel => channel.moderator == characterID)
    orderly.publicKept with ⟨_, _, _, unowned⟩
  apply set_orderly orderly
  · split_ifs at isCount <;> omega
  · intro other _ within different
    split_ifs at isCount <;> omega
  · constructor
    · intro left leftWithin right rightWithin _
      have leftZero : left < 1 := leftWithin
      have rightZero : right < 1 := rightWithin
      omega
    · exact distinct_nothing rfl
    · intro _ _ subscriber has
      rcases has with ⟨index, within, same⟩
      have zero : index = 0 := Nat.lt_one_iff.mp within
      rw [zero] at same
      exact Or.inl same.symm
    · intro _ closed
      have zero : characterID = 0 := closed
      rw [getPlayer, if_pos zero] at known
      cases known
  · intro _ _ other isPrivate within _ same
    have unmoderated := unowned (not_lt.mp own) other isPrivate within
    exact absurd (beq_iff_eq.mpr same) (Bool.eq_false_iff.mp unmoderated)

end Channels

theorem step_orderly (orderly : Orderly world) (request : Surroundings × Call) :
    Orderly (step world request) := by
  rw [step]
  rcases called : call request.1 world request.2 with refusal | after
  · exact orderly
  cases isCall : request.2 with
  | openChannel characterID =>
    rw [isCall] at called
    exact open_orderly orderly called
  | inviteToChannel characterID name =>
    rw [isCall] at called
    exact invite_orderly orderly called
  | excludeFromChannel characterID name =>
    rw [isCall] at called
    exact exclude_orderly orderly called
  | joinChannel channelID characterID =>
    rw [isCall, call] at called
    rcases joined : joinChannel request.1 world channelID characterID with refusal | result
    · rw [joined] at called
      cases called
    rw [joined] at called
    cases called
    exact join_orderly orderly joined
  | leaveChannel channelID characterID close =>
    rw [isCall] at called
    cases called
    exact leave_orderly orderly characterID close
  | leaveAllChannels characterID =>
    rw [isCall] at called
    cases called
    exact leave_all_orderly orderly characterID

theorem no_channels_orderly : Orderly noChannels := by
  constructor
  · exact le_refl _
  · intro channelID _ _
    constructor
    · exact distinct_nothing rfl
    · exact distinct_nothing rfl
    · intro _ _ subscriber has
      exact (has_nothing rfl has).elim
    · intro _ _
      rfl
  · intro left low high
    exact absurd high (not_lt.mpr low)

theorem run_orderly (requests : List (Surroundings × Call)) (orderly : Orderly world) :
    Orderly (requests.foldl step world) := by
  induction requests generalizing world with
  | nil => exact orderly
  | cons request requests ih => exact ih (step_orderly orderly request)

/-- Whatever the players ask for, in any order: subscribers are distinct, those of a private
channel moderate it or are invited, nobody moderates two, and a closed one has none. -/
theorem private_channels_are_orderly (requests : List (Surroundings × Call)) :
    (∀ channelID, 0 ≤ channelID → channelID < (run requests).channels →
      ((run requests).channelArray channelID).subscriber.Distinct) ∧
    (∀ channelID, firstPrivateChannel ≤ channelID →
      channelActive (run requests) channelID = true →
      ∀ subscriber, ((run requests).channelArray channelID).subscriber.Has subscriber →
        subscriber = ((run requests).channelArray channelID).moderator ∨
          ((run requests).channelArray channelID).invitedPlayer.Has subscriber) ∧
    (∀ left right, firstPrivateChannel ≤ left → firstPrivateChannel ≤ right →
      channelActive (run requests) left = true → channelActive (run requests) right = true →
      ((run requests).channelArray left).moderator =
        ((run requests).channelArray right).moderator → left = right) ∧
    (∀ channelID, firstPrivateChannel ≤ channelID → channelID < (run requests).channels →
      ((run requests).channelArray channelID).moderator = 0 →
        ((run requests).channelArray channelID).subscriber.count = 0) := by
  have orderly : Orderly (run requests) := run_orderly requests no_channels_orderly
  have positive : (0 : Int) ≤ firstPrivateChannel := by decide
  refine ⟨?_, ?_, ?_, ?_⟩
  · intro channelID low high
    exact (orderly.each channelID low high).distinct
  · intro channelID isPrivate active
    rcases active_within active with ⟨low, high, moderated⟩
    exact (orderly.each channelID low high).admitted isPrivate (moderated isPrivate)
  · intro left right leftPrivate rightPrivate leftActive rightActive same
    rcases active_within leftActive with ⟨_, leftHigh, moderated⟩
    rcases active_within rightActive with ⟨_, rightHigh, _⟩
    exact orderly.one left leftPrivate leftHigh right rightPrivate rightHigh
      (moderated leftPrivate) same
  · intro channelID isPrivate high closed
    exact (orderly.each channelID (positive.trans isPrivate) high).closed isPrivate closed

/-- The channel that `send_open_own_channel` announces: the one that the player moderates. -/
def ownChannel (world : Channels) (characterID : UInt32) : Int :=
  firstPrivate world fun channel => channel.moderator == characterID

def Attends (world : Channels) (characterID : UInt32) : Prop :=
  ownChannel world characterID < world.channels →
    channelSubscribed world (ownChannel world characterID) characterID = true

/-- A channel is announced, and the player is subscribed to it. -/
def Subscribes (world : Channels) (characterID : UInt32) : Prop :=
  ownChannel world characterID < world.channels ∧
    channelSubscribed world (ownChannel world characterID) characterID = true

theorem own_channel_eq (orderly : Orderly world) (isPrivate : firstPrivateChannel ≤ channelID)
    (inside : channelID < world.channels)
    (moderates : (world.channelArray channelID).moderator = characterID)
    (someone : characterID ≠ 0) : ownChannel world characterID = channelID := by
  rcases first_private_spec world (fun channel => channel.moderator == characterID)
    orderly.publicKept with ⟨low, _, found, missed⟩
  have within : ownChannel world characterID < world.channels := by
    apply lt_of_not_ge
    intro beyond
    have other := missed beyond channelID isPrivate inside
    rw [moderates, beq_self_eq_true] at other
    cases other
  have owned := beq_iff_eq.mp (found within)
  apply orderly.one _ low within channelID isPrivate inside
  · intro nobody
    exact someone (owned.symm.trans nobody)
  · exact owned.trans moderates.symm

/-- A channel that is new to its moderator has it as its subscriber. -/
theorem opened_subscribes (orderly : Orderly world) {after : Channels}
    (opens : openChannel around world characterID = .ok after)
    (without : ¬ ownChannel world characterID < world.channels) : Subscribes after characterID := by
  have later := open_orderly orderly opens
  rw [openChannel] at opens
  rcases known : getPlayer around characterID with _ | player
  · rw [known] at opens
    cases opens
  have someone : characterID ≠ 0 := by
    intro zero
    rw [getPlayer, if_pos zero] at known
    cases known
  simp only [known] at opens
  generalize isCount : (if firstPrivate world (fun channel => channel.moderator == 0) =
    world.channels then world.channels + 1 else world.channels) = count at opens
  split_ifs at opens with full noPremium own
  · exact absurd own without
  rcases first_private_spec world (fun channel => channel.moderator == 0)
    orderly.publicKept with ⟨low, high, _, _⟩
  generalize firstPrivate world (fun channel => channel.moderator == 0) = channelID at *
  have inside : channelID < count := by
    split_ifs at isCount <;> omega
  generalize isChannel : Channel.mk characterID player.name _ _ = opened at opens
  cases opens
  have self : (setChannel world channelID opened).channelArray channelID = opened :=
    set_channel_self
  have moderates : opened.moderator = characterID := by rw [← isChannel]
  have own := own_channel_eq later low inside (by rw [← moderates]; exact congrArg _ self)
    someone
  have moderated : ((setChannel world channelID opened).channelArray channelID).moderator ≠
      0 := by
    rw [self, moderates]
    exact someone
  have active : channelActive { setChannel world channelID opened with channels := count }
      channelID = true := moderated_active low inside moderated
  refine ⟨by rw [own]; exact inside, ?_⟩
  rw [own, channelSubscribed, active]
  simp only [Bool.not_true, Bool.false_eq_true, if_false]
  rw [contains_iff, self, ← isChannel]
  refine ⟨0, Nat.zero_lt_one, ?_⟩
  simp only [update_self]

/-- In every state that can be reached, who opens a channel is subscribed to it, unless the channel
was his before and he had left it. -/
theorem opening_subscribes_iff (requests : List (Surroundings × Call)) (around : Surroundings)
    (characterID : UInt32) {after : Channels}
    (opens : openChannel around (run requests) characterID = .ok after) :
    Subscribes after characterID ↔ Attends (run requests) characterID := by
  have orderly : Orderly (run requests) := run_orderly requests no_channels_orderly
  by_cases own : ownChannel (run requests) characterID < (run requests).channels
  · have same : after = run requests := by
      rw [openChannel] at opens
      cases known : getPlayer around characterID with
      | none =>
        rw [known] at opens
        cases opens
      | some player =>
        unfold ownChannel at own
        simp only [known, if_pos own] at opens
        split_ifs at opens
        cases opens
        rfl
    rw [same]
    constructor
    · intro subscribes _
      exact subscribes.2
    · intro attends
      exact ⟨own, attends own⟩
  · constructor
    · intro _ moderates
      exact absurd moderates own
    · intro _
      exact opened_subscribes orderly opens own

/-- Two players with the right to a channel, of whom the second is named Guest. -/
def twoPlayers : Surroundings where
  players := fun characterID =>
    if characterID = 5 then some ⟨"Host", ""⟩
    else if characterID = 6 then some ⟨"Guest", ""⟩ else none
  checkRight := fun _ right => match right with
    | .premiumAccount => true
    | _ => false
  identifyPlayer := fun _ _ => .found 6
  getCharacterID := fun _ => 6

/-- The host opens a channel, the guest comes, and the host is taken over or logs out. -/
def hostLeaves : List (Surroundings × Call) :=
  [(twoPlayers, .openChannel 5), (twoPlayers, .inviteToChannel 5 "Guest"),
    (twoPlayers, .joinChannel 8 6), (twoPlayers, .leaveAllChannels 5)]

theorem first_opening_subscribes : ∃ after, openChannel twoPlayers (run []) 5 = .ok after ∧
    (Subscribes after 5 ↔ Attends (run []) 5) :=
  ⟨_, rfl, opening_subscribes_iff [] twoPlayers 5 rfl⟩

/-- The channel 8 is announced to the host again, who is not subscribed to it. -/
theorem host_is_not_subscribed : openChannel twoPlayers (run hostLeaves) 5 = .ok (run hostLeaves) ∧
    ownChannel (run hostLeaves) 5 = 8 ∧ channelSubscribed (run hostLeaves) 8 5 = false ∧
    ¬ Subscribes (run hostLeaves) 5 := by
  have own : ownChannel (run hostLeaves) 5 = 8 := by decide
  have left : channelSubscribed (run hostLeaves) 8 5 = false := by decide
  refine ⟨rfl, own, left, ?_⟩
  intro subscribes
  have there := subscribes.2
  cases there

end TibiaGame.PrivateChannels
