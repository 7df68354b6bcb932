import Mathlib.Tactic
import TibiaGame.CoinChange

/-!
# The addressees of private messages

`RecordMessage` and `CheckForMuting` of `player.cpp`. A player has twenty places for addressees
and the rounds of the last messages to them. A place is free again 600 rounds after that, and
who finds none for a message is muted.
-/

namespace TibiaGame.PrivateMessages

open Function List

open TibiaGame.CoinChange (add_exact mul_exact)

/-- The fields of a `TPlayer` that the two functions read or write. -/
structure Player where
  addressees : Fin 20 → UInt32
  addresseesTimes : Fin 20 → UInt32
  numberOfMutings : Int32
  mutingEndRound : UInt32

def Player.isFree (player : Player) (roundNr : UInt32) (place : Fin 20) : Bool :=
  player.addressees place == 0 || decide (roundNr > player.addresseesTimes place + 600)

/-- The loop of `RecordMessage`, with the places that are still to come. -/
def Player.searchPlace (player : Player) (roundNr addresseeID : UInt32) :
    List (Fin 20) → Option (Fin 20) → Option (Fin 20)
  | [], addresseeNr => addresseeNr
  | place :: rest, addresseeNr =>
      if player.addressees place = addresseeID then some place
      else player.searchPlace roundNr addresseeID rest
        (if player.isFree roundNr place then some place else addresseeNr)

/-- The `Muting` that is returned, and the player afterwards. -/
def Player.recordMessage (player : Player) (roundNr addresseeID : UInt32) : Int32 × Player :=
  match player.searchPlace roundNr addresseeID (List.finRange 20) none with
  | none =>
      let numberOfMutings := player.numberOfMutings + 1
      let muting := numberOfMutings * numberOfMutings * 5
      (muting, { player with
        numberOfMutings := numberOfMutings
        mutingEndRound := roundNr + muting.toUInt32 })
  | some addresseeNr =>
      (0, { player with
        addressees := Function.update player.addressees addresseeNr addresseeID
        addresseesTimes := Function.update player.addresseesTimes addresseeNr roundNr })

def Player.checkForMuting (player : Player) (roundNr : UInt32) : Int32 :=
  if player.mutingEndRound > roundNr then (player.mutingEndRound - roundNr).toInt32 else 0

structure Message where
  round : UInt32
  addressee : UInt32
  deriving DecidableEq

def Player.accepts (player : Player) (message : Message) : Bool :=
  (player.recordMessage message.round message.addressee).1 == 0

def Player.send (player : Player) : List Message → Player
  | [] => player
  | message :: rest => (player.recordMessage message.round message.addressee).2.send rest

/-- The messages for which `RecordMessage` returns 0. -/
def Player.acceptedMessages (player : Player) : List Message → List Message
  | [] => []
  | message :: rest =>
      let others := (player.recordMessage message.round message.addressee).2.acceptedMessages rest
      if player.accepts message then message :: others else others

/-- A character who got one of the messages within 600 rounds from `first` on. -/
def Addressed (messages : List Message) (first : Nat) (addresseeID : UInt32) : Prop :=
  addresseeID ≠ 0 ∧ ∃ message ∈ messages, message.addressee = addresseeID ∧
    first ≤ message.round.toNat ∧ message.round.toNat < first + 600

structure NoWrap (player : Player) (messages : List Message) : Prop where
  rounds : ∀ message ∈ messages, message.round.toNat + 600 < 2 ^ 32
  started : 0 ≤ player.numberOfMutings.toInt
  mutings : (player.numberOfMutings.toInt + messages.length) *
    (player.numberOfMutings.toInt + messages.length) * 5 < 2 ^ 31

def InOrder (messages : List Message) : Prop :=
  messages.Pairwise fun earlier later => earlier.round ≤ later.round

/-- Within 600 rounds at most twenty characters get messages, and who has got one gets the next ones
of these rounds. -/
structure Limited (player : Player) (messages : List Message) : Prop where
  few : ∀ (first : Nat) (characters : Finset UInt32),
    (∀ characterID ∈ characters, Addressed (player.acceptedMessages messages) first characterID) →
      characters.card ≤ 20
  repeated : ∀ (before between behind : List Message) (message again : Message),
    messages = before ++ message :: (between ++ again :: behind) →
    message.addressee ≠ 0 → again.addressee = message.addressee →
    again.round.toNat ≤ message.round.toNat + 600 →
    (player.send before).accepts message = true →
      (player.send (before ++ message :: between)).accepts again = true

variable {player : Player} {roundNr addresseeID : UInt32} {place : Fin 20} {message again : Message}
  {messages rest before between behind : List Message} {since first : Nat}

/-- The place that is found can be taken: it has the addressee, or it is free. -/
theorem search_found {places : List (Fin 20)} {found : Option (Fin 20)}
    (fair : ∀ place, found = some place → player.isFree roundNr place = true)
    (search : player.searchPlace roundNr addresseeID places found = some place) :
    player.addressees place = addresseeID ∨ player.isFree roundNr place = true := by
  induction places generalizing found with
  | nil => exact .inr (fair place search)
  | cons head rest ih =>
    rw [Player.searchPlace] at search
    split_ifs at search with here free
    · cases search
      exact .inl here
    · apply ih _ search
      rintro place ⟨rfl⟩
      exact free
    · exact ih fair search

theorem search_match {places : List (Fin 20)} {found : Option (Fin 20)} (inside : place ∈ places)
    (has : player.addressees place = addresseeID) :
    ∃ other, player.searchPlace roundNr addresseeID places found = some other ∧
      player.addressees other = addresseeID := by
  induction places generalizing found with
  | nil => cases inside
  | cons head rest ih =>
    rw [Player.searchPlace]
    by_cases here : player.addressees head = addresseeID
    · exact ⟨head, if_pos here, here⟩
    rw [if_neg here]
    rcases mem_cons.mp inside with rfl | later
    · exact (here has).elim
    · exact ih later

theorem record_cases (player : Player) (message : Message) :
    (player.searchPlace message.round message.addressee (List.finRange 20) none = none ∧
      (player.recordMessage message.round message.addressee).2.addressees = player.addressees ∧
      (player.recordMessage message.round message.addressee).2.addresseesTimes =
        player.addresseesTimes) ∨
    ∃ place, (player.addressees place = message.addressee ∨
        player.isFree message.round place = true) ∧
      (player.recordMessage message.round message.addressee).1 = 0 ∧
      (player.recordMessage message.round message.addressee).2.addressees =
        update player.addressees place message.addressee ∧
      (player.recordMessage message.round message.addressee).2.addresseesTimes =
        update player.addresseesTimes place message.round := by
  rw [Player.recordMessage]
  rcases search : player.searchPlace message.round message.addressee (List.finRange 20) none with _ | place
  · exact .inl ⟨rfl, rfl, rfl⟩
  right
  exact ⟨place, search_found (fun _ impossible => by cases impossible) search, rfl, rfl, rfl⟩

theorem NoWrap.later (noWrap : NoWrap player (message :: rest)) :
    NoWrap (player.recordMessage message.round message.addressee).2 rest := by
  have started := noWrap.started
  have mutings := noWrap.mutings
  rw [length_cons] at mutings
  push_cast at mutings
  have few : player.numberOfMutings.toInt + (rest.length + 1) < 2 ^ 16 := by nlinarith
  have rounds : ∀ message ∈ rest, message.round.toNat + 600 < 2 ^ 32 :=
    fun other member => noWrap.rounds other (mem_cons_of_mem _ member)
  rw [Player.recordMessage]
  rcases player.searchPlace message.round message.addressee (List.finRange 20) none with _ | place
  · have one : (1 : Int32).toInt = 1 := rfl
    have next : (player.numberOfMutings + 1).toInt = player.numberOfMutings.toInt + 1 := by
      rw [add_exact, one] <;> rw [one] <;> omega
    refine ⟨rounds, ?_, ?_⟩
    · show 0 ≤ (player.numberOfMutings + 1).toInt
      omega
    show ((player.numberOfMutings + 1).toInt + _) * ((player.numberOfMutings + 1).toInt + _) * 5 < _
    rw [next]
    have same : player.numberOfMutings.toInt + 1 + (rest.length : Int) =
        player.numberOfMutings.toInt + (rest.length + 1) := by omega
    rw [same]
    exact mutings
  refine ⟨rounds, started, ?_⟩
  show (player.numberOfMutings.toInt + _) * (player.numberOfMutings.toInt + _) * 5 < _
  nlinarith

theorem accepts_iff (noWrap : NoWrap player (message :: rest)) :
    player.accepts message = true ↔
      player.searchPlace message.round message.addressee (List.finRange 20) none ≠ none := by
  have started := noWrap.started
  have mutings := noWrap.mutings
  rw [length_cons] at mutings
  push_cast at mutings
  have few : player.numberOfMutings.toInt + (rest.length + 1) < 2 ^ 16 := by nlinarith
  rw [Player.accepts, beq_iff_eq, Player.recordMessage]
  cases player.searchPlace message.round message.addressee (List.finRange 20) none with
  | some place => simp
  | none =>
    simp only [ne_eq, not_true_eq_false, iff_false]
    have one : (1 : Int32).toInt = 1 := rfl
    have five : (5 : Int32).toInt = 5 := rfl
    have next : (player.numberOfMutings + 1).toInt = player.numberOfMutings.toInt + 1 := by
      rw [add_exact, one] <;> rw [one] <;> omega
    have fits : (player.numberOfMutings.toInt + 1) * (player.numberOfMutings.toInt + 1) * 5 <
        2 ^ 31 := by nlinarith
    have square : ((player.numberOfMutings + 1) * (player.numberOfMutings + 1)).toInt =
        (player.numberOfMutings.toInt + 1) * (player.numberOfMutings.toInt + 1) := by
      rw [mul_exact, next] <;> rw [next] <;> nlinarith
    intro zero
    have value := congrArg Int32.toInt zero
    rw [mul_exact, square, five] at value
    · have nothing : (0 : Int32).toInt = 0 := rfl
      rw [nothing] at value
      nlinarith
    · nlinarith
    · rw [square, five]
      exact fits

/-- A place has the addressee, with a message that is not older than `since`. -/
def Held (player : Player) (addresseeID : UInt32) (since : Nat) : Prop :=
  ∃ place, player.addressees place = addresseeID ∧
    since ≤ (player.addresseesTimes place).toNat ∧
    (player.addresseesTimes place).toNat + 600 < 2 ^ 32

theorem held_accepts (noWrap : NoWrap player (message :: rest))
    (held : Held player message.addressee since) : player.accepts message = true := by
  rcases held with ⟨place, has, _⟩
  rcases search_match (mem_finRange place) has with ⟨other, found, _⟩
  rw [accepts_iff noWrap, found]
  exact Option.some_ne_none other

theorem accepted_held (noWrap : NoWrap player (message :: rest))
    (accepted : player.accepts message = true) :
    Held (player.recordMessage message.round message.addressee).2 message.addressee
      message.round.toNat := by
  have found := (accepts_iff noWrap).mp accepted
  rcases record_cases player message with ⟨missing, _⟩ | ⟨place, _, _, addressees, times⟩
  · exact (found missing).elim
  refine ⟨place, ?_, ?_, ?_⟩
  · rw [addressees, update_self]
  · rw [times, update_self]
  · rw [times, update_self]
    exact noWrap.rounds message mem_cons_self

theorem held_kept (someone : addresseeID ≠ 0) (held : Held player addresseeID since)
    (early : since ≤ message.round.toNat) (soon : message.round.toNat ≤ since + 600)
    (noWrap : message.round.toNat + 600 < 2 ^ 32) :
    Held (player.recordMessage message.round message.addressee).2 addresseeID since := by
  rcases held with ⟨place, has, recent, fits⟩
  rcases record_cases player message with
    ⟨_, addressees, times⟩ | ⟨taken, allowed, _, addressees, times⟩
  · refine ⟨place, ?_⟩
    rw [addressees, times]
    exact ⟨has, recent, fits⟩
  · by_cases here : place = taken
    · refine ⟨taken, ?_⟩
      rw [addressees, times, update_self, update_self]
      refine ⟨?_, early, noWrap⟩
      rw [← here, has] at allowed
      rcases allowed with same | free
      · exact same.symm
      rw [Player.isFree, has, Bool.or_eq_true, beq_iff_eq, decide_eq_true_eq, gt_iff_lt,
        UInt32.lt_iff_toNat_lt, UInt32.toNat_add] at free
      have sixHundred : (600 : UInt32).toNat = 600 := rfl
      rcases free with nobody | expired
      · exact (someone nobody).elim
      · omega
    refine ⟨place, ?_⟩
    rw [addressees, times, update_of_ne here, update_of_ne here]
    exact ⟨has, recent, fits⟩

theorem NoWrap.send (noWrap : NoWrap player (before ++ behind)) :
    NoWrap (player.send before) behind := by
  induction before generalizing player with
  | nil => exact noWrap
  | cons message rest ih => exact ih noWrap.later

theorem NoWrap.front (noWrap : NoWrap player (before ++ behind)) : NoWrap player before := by
  have started := noWrap.started
  have mutings := noWrap.mutings
  rw [length_append] at mutings
  push_cast at mutings
  refine ⟨fun message inside => noWrap.rounds message (mem_append_left _ inside), started, ?_⟩
  nlinarith

theorem send_append : player.send (before ++ behind) = (player.send before).send behind := by
  induction before generalizing player with
  | nil => rfl
  | cons message rest ih => exact ih

theorem held_send (noWrap : NoWrap player messages) (someone : addresseeID ≠ 0)
    (held : Held player addresseeID since)
    (near : ∀ message ∈ messages,
      since ≤ message.round.toNat ∧ message.round.toNat ≤ since + 600) :
    Held (player.send messages) addresseeID since := by
  induction messages generalizing player with
  | nil => exact held
  | cons message rest ih =>
    have here := near message mem_cons_self
    have kept := held_kept someone held here.1 here.2 (noWrap.rounds message mem_cons_self)
    exact ih noWrap.later kept fun other member => near other (mem_cons_of_mem _ member)

theorem accepted_append : player.acceptedMessages (before ++ behind) =
    player.acceptedMessages before ++ (player.send before).acceptedMessages behind := by
  induction before generalizing player with
  | nil => rfl
  | cons message rest ih =>
    rw [cons_append, Player.acceptedMessages, Player.acceptedMessages, ih, Player.send]
    split_ifs
    · rfl
    · rfl

theorem accepted_subset (member : message ∈ player.acceptedMessages messages) :
    message ∈ messages := by
  induction messages generalizing player with
  | nil => exact member
  | cons head rest ih =>
    rw [Player.acceptedMessages] at member
    split_ifs at member
    · rcases mem_cons.mp member with rfl | later
      · exact mem_cons_self
      · exact mem_cons_of_mem _ (ih later)
    · exact mem_cons_of_mem _ (ih member)

theorem window_held (noWrap : NoWrap player messages)
    (near : ∀ message ∈ messages,
      first ≤ message.round.toNat ∧ message.round.toNat < first + 600)
    (member : message ∈ player.acceptedMessages messages) (someone : message.addressee ≠ 0) :
    Held (player.send messages) message.addressee first := by
  induction messages generalizing player with
  | nil => cases member
  | cons head rest ih =>
    have later : ∀ message ∈ rest,
        first ≤ message.round.toNat ∧ message.round.toNat < first + 600 :=
      fun other inside => near other (mem_cons_of_mem _ inside)
    rw [Player.acceptedMessages] at member
    by_cases accepted : player.accepts head = true
    · rw [if_pos accepted] at member
      rcases mem_cons.mp member with rfl | inside
      · rcases accepted_held noWrap accepted with ⟨place, has, recent, fits⟩
        have since := (near message mem_cons_self).1
        rw [Player.send]
        exact held_send noWrap.later someone ⟨place, has, since.trans recent, fits⟩
          fun other inside => ⟨(later other inside).1, (later other inside).2.le⟩
      · exact ih noWrap.later later inside
    rw [if_neg accepted] at member
    exact ih noWrap.later later member

theorem in_order_split (bound : Nat) (inOrder : InOrder messages) :
    ∃ before behind, messages = before ++ behind ∧
      (∀ message ∈ before, message.round.toNat < bound) ∧
      ∀ message ∈ behind, bound ≤ message.round.toNat := by
  induction messages with
  | nil => exact ⟨[], [], rfl, fun _ none => (by cases none), fun _ none => (by cases none)⟩
  | cons head rest ih =>
    rcases pairwise_cons.mp inOrder with ⟨least, others⟩
    by_cases early : head.round.toNat < bound
    · rcases ih others with ⟨before, behind, rfl, low, high⟩
      refine ⟨head :: before, behind, rfl, ?_, high⟩
      rintro message (_ | ⟨_, inside⟩)
      · exact early
      · exact low message inside
    refine ⟨[], head :: rest, rfl, fun _ none => (by cases none), ?_⟩
    rintro message (_ | ⟨_, inside⟩)
    · exact not_lt.mp early
    · have le := UInt32.le_iff_toNat_le.mp (least message inside)
      omega

/-- This holds for messages in the order of their rounds, from any table. -/
theorem messages_are_limited (noWrap : NoWrap player messages) (inOrder : InOrder messages) :
    Limited player messages := by
  constructor
  · intro first characters addressed
    rcases in_order_split first inOrder with ⟨early, others, rfl, low, high⟩
    rcases in_order_split (first + 600) (pairwise_append.mp inOrder).2.1 with
      ⟨window, late, rfl, below, above⟩
    have noWrapHere : NoWrap (player.send early) window := noWrap.send.front
    have places : characters ⊆
        Finset.univ.image ((player.send early).send window).addressees := by
      intro characterID member
      rcases addressed characterID member with ⟨someone, message, accepted, same, least, most⟩
      rw [accepted_append, accepted_append] at accepted
      have inWindow : message ∈ (player.send early).acceptedMessages window := by
        rcases mem_append.mp accepted with inEarly | inRest
        · have before := low message (accepted_subset inEarly)
          omega
        · rcases mem_append.mp inRest with here | inLate
          · exact here
          · have after := above message (accepted_subset inLate)
            omega
      rw [← same] at someone ⊢
      rcases window_held noWrapHere (fun other inside =>
          ⟨high other (mem_append_left _ inside), below other inside⟩) inWindow someone with
        ⟨place, has, _⟩
      exact Finset.mem_image.mpr ⟨place, Finset.mem_univ place, has⟩
    calc characters.card ≤ (Finset.univ.image ((player.send early).send window).addressees).card :=
          Finset.card_le_card places
      _ ≤ (Finset.univ : Finset (Fin 20)).card := Finset.card_image_le
      _ = 20 := Finset.card_fin 20
  · rintro before between behind message again rfl someone same soon accepted
    have noWrapHere : NoWrap (player.send before) (message :: (between ++ again :: behind)) :=
      noWrap.send
    rcases pairwise_cons.mp (pairwise_append.mp inOrder).2.1 with ⟨least, later⟩
    have held := accepted_held noWrapHere accepted
    have still := held_send noWrapHere.later.front someone held (by
      intro other inside
      have low := UInt32.le_iff_toNat_le.mp (least other (mem_append_left _ inside))
      have high := UInt32.le_iff_toNat_le.mp
        ((pairwise_append.mp later).2.2 other inside again mem_cons_self)
      exact ⟨low, high.trans soon⟩)
    rw [send_append, Player.send]
    apply held_accepts noWrapHere.later.send
    rw [same]
    exact still

def newPlayer : Player where
  addressees := fun _ => 0
  addresseesTimes := fun _ => 0
  numberOfMutings := 0
  mutingEndRound := 0

theorem three_messages_are_limited : Limited newPlayer [⟨1, 5⟩, ⟨1, 6⟩, ⟨600, 5⟩] :=
  messages_are_limited ⟨by decide, by decide, by decide⟩
    (show List.Pairwise _ _ by decide)

end TibiaGame.PrivateMessages
