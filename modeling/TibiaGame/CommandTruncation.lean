import TibiaGame.CommandSafety
import TibiaGame.ToDoScheduler

/-!
# Packets that end too early

A read behind the end of a packet throws a text, which no handler catches. All handlers but that
of `GO_PATH` have then changed nothing: they read first, and call the game afterwards.
-/

namespace TibiaGame.CommandTruncation

open HouseOperations CommandHandlers CommandSafety Library.ThrowingState

variable {World Value Final : Type}

def Wary (program : Command World Value) : Prop :=
  ∀ start, Meets program start (fun _ _ => True)
    (fun thrown after => isText thrown → after.world = start.world) fun _ => True

def Quiet (program : Command World Value) : Prop :=
  ∀ start, ThrowsOnly (fun thrown => ¬ isText thrown) program start

/-- Like `Throws`, by the way a handler is put together. -/
class IsWary (program : Command World Value) : Prop where
  wary : Wary program

section Rules

variable {program : Command World Value} {next : Value → Command World Final}

instance [IsQuiet program] : IsWary program := by
  constructor
  intro start
  have quiet : Quiet program := Throws.throws
  apply (quiet start).imp
  · intro _ _ _
    trivial
  · intro thrown _ noText isText
    exact absurd isText noText
  · intro _ _
    trivial

theorem IsWary.receive {reader : Reader Value} (rest : ∀ value, IsWary (next value)) :
    IsWary (receive reader >>= next) := by
  constructor
  intro start
  unfold Meets
  rw [finish_bind, finish_receive]
  cases reader start.buffer with
  | none => exact fun _ => rfl
  | some taken => exact (rest taken.1).wary { start with buffer := taken.2 }

theorem IsWary.inquire {answer : World → Value} (rest : ∀ value, IsWary (next value)) :
    IsWary (inquire answer >>= next) := ⟨fun start => (rest (answer start.world)).wary start⟩

instance {reader : Reader Value} [∀ value, IsWary (next value)] :
    IsWary (receive reader >>= next) := .receive fun _ => inferInstance

instance {answer : World → Value} [∀ value, IsWary (next value)] :
    IsWary (inquire answer >>= next) := .inquire fun _ => inferInstance

instance {condition : Prop} [Decidable condition] {first second : Command World Value}
    [IsWary first] [IsWary second] : IsWary (if condition then first else second) := by
  split_ifs
  · infer_instance
  · infer_instance

instance {needed : Bool} {program : Command World Unit} [IsWary program] :
    IsWary (whenever needed program) := by
  cases needed with
  | true => exact ‹IsWary program›
  | false => exact inferInstanceAs (IsWary (pure ()))

end Rules

section Handlers

variable (game : Game World)

section

variable {body : UInt32 → Command World Unit}

theorem IsWary.withPlayer (wary : ∀ player, IsWary (body player)) :
    IsWary (withPlayer game body) := by
  apply IsWary.inquire
  intro found
  cases found with
  | none => infer_instance
  | some player => exact wary player

variable [∀ player, IsWary (body player)]

instance : IsWary (withPlayer game body) := .withPlayer game fun _ => inferInstance

instance : IsWary (withRequests game body) := by
  unfold withRequests
  infer_instance

instance : IsWary (withParty game body) := by
  unfold withParty
  infer_instance

end

instance (player : UInt32) (mode : UInt8) (addressee : Text) (channel : UInt16) :
    IsWary (talkTo game player mode addressee channel) := by
  unfold talkTo
  infer_instance

instance {reader : Reader Value} {deed : Value → Deed} : IsWary (deedOnly game reader deed) := by
  unfold deedOnly
  infer_instance

instance : IsWary (cUseOnCreature game) := by
  apply IsWary.withPlayer
  intro player
  iterate 4
    apply IsWary.receive
    intro _
  apply IsWary.inquire
  intro world
  dsimp only
  split
  · infer_instance
  · split
    · infer_instance
    · infer_instance

def goPathCommand : UInt8 := 100

/-- Every handler but one reads what it needs before it changes anything. -/
theorem handle_wary (command : UInt8) (other : command ≠ goPathCommand) :
    Wary (handle game command) := by
  suffices IsWary (handle game command) from IsWary.wary
  unfold handle
  split
  all_goals first
    | exact absurd rfl other
    | infer_instance
    | dsimp only [cPing, cGoDirection, cGoStop, cRotate, cMoveObject, cTradeObject,
        cInspectTrade, cAcceptTrade, cRejectTrade, cUseObject, cUseTwoObjects, cTurnObject,
        cCloseContainer, cUpContainer, cEditText, cEditList, cLookAtPoint, cTalk, cGetChannels,
        cJoinChannel, cLeaveChannel, cPrivateChannel, cProcessRequest, cRemoveRequest,
        cCancelRequest, cSetTactics, cAttack, cInviteToParty, cJoinParty, cRevokeInvitation,
        cPassLeadership, cLeaveParty, cOpenChannel, cInviteToChannel, cExcludeFromChannel,
        cCancel, cRefreshField, cRefreshContainer, cGetOutfit, cSetOutfit, cAddBuddy,
        cRemoveBuddy, cBugReport, cRuleViolation, cErrorFileEntry, cChallengeResponse]
      infer_instance

end Handlers

end TibiaGame.CommandTruncation
