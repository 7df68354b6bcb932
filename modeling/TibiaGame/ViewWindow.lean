import Mathlib.Tactic

/-!
# The fields a client sees

`TConnection::is_visible`, the fields that `send_full_screen`, `send_row` and
`send_floors` transmit, and `TCreature::NotifyGo` for a player with a connection.
Whether a packet reaches the client is a parameter: `begin_send_data` refuses it
when the output buffer is full, and `finish_send_data` drops it after an overflow.
-/

namespace TibiaGame.ViewWindow

@[ext] structure Position where
  x : Int
  y : Int
  z : Int
deriving DecidableEq

structure Place extends Position where
  floor : 0 ≤ z ∧ z ≤ 15

structure Terminal where
  offsetX : Int
  offsetY : Int
  width : Int
  height : Int

/-- The values that `join_game` sets for both types of terminal. -/
def joined : Terminal := ⟨8, 6, 18, 14⟩

def isVisible (terminal : Terminal) (player point : Position) : Bool :=
  let seesFloor :=
    if player.z ≤ 7 then decide (point.z ≤ 7) else decide (|player.z - point.z| ≤ 2)
  let minX := (player.x - terminal.offsetX) + (player.z - point.z)
  let minY := (player.y - terminal.offsetY) + (player.z - point.z)
  let maxX := minX + terminal.width - 1
  let maxY := minY + terminal.height - 1
  seesFloor && decide (minX ≤ point.x ∧ point.x ≤ maxX ∧ minY ≤ point.y ∧ point.y ≤ maxY)

/-- The values of a loop that counts by `step` until `last` is met. -/
def countUntil (last step : Int) : Nat → Int → List Int
  | 0, _ => []
  | fuel + 1, value => if value = last then [] else value :: countUntil last step fuel (value + step)

/-- `StartZ`, `EndZ` and `StepZ`; the end is exclusive. -/
structure Floors where
  start : Int
  last : Int
  step : Int

def Floors.values (floors : Floors) : List Int :=
  countUntil floors.last floors.step (floors.last - floors.start).natAbs floors.start

def screenFloors (playerZ : Int) : Floors :=
  if playerZ ≤ 7 then ⟨7, 0 + -1, -1⟩ else ⟨playerZ - 2, min (playerZ + 2) 15 + 1, 1⟩

/-- The floors that the client lacks after a floor change; none where both ends agree. -/
def newFloors (playerZ : Int) (up : Bool) : Floors :=
  if up then
    if playerZ = 7 then ⟨5, 0 + -1, -1⟩
    else if playerZ > 7 then ⟨playerZ - 2, playerZ - 2 + -1, -1⟩
    else ⟨-1, -1, 0⟩
  else
    if playerZ = 8 then ⟨8, 10 + 1, 1⟩
    else if playerZ > 8 ∧ playerZ + 2 ≤ 15 then ⟨playerZ + 2, playerZ + 2 + 1, 1⟩
    else ⟨-1, -1, 0⟩

/-- The values of a loop from `first` to `last`, both included. -/
def countTo (first last : Int) : List Int :=
  (List.range (last - first + 1).toNat).map fun steps : Nat => first + steps

structure Window where
  minX : Int
  minY : Int
  maxX : Int
  maxY : Int

def screenWindow (terminal : Terminal) (player : Position) : Window :=
  let minX := player.x - terminal.offsetX
  let minY := player.y - terminal.offsetY
  ⟨minX, minY, minX + terminal.width - 1, minY + terminal.height - 1⟩

/-- The three loops around `send_map_point`, with the offset of each floor. -/
def windowFields (window : Window) (player : Position) (floors : Floors) : List Position :=
  floors.values.flatMap fun pointZ =>
    let zOffset := player.z - pointZ
    (countTo window.minX window.maxX).flatMap fun pointX =>
      (countTo window.minY window.maxY).map fun pointY =>
        ⟨pointX + zOffset, pointY + zOffset, pointZ⟩

inductive Direction where
  | north
  | east
  | south
  | west

def sendFullScreen (terminal : Terminal) (player : Position) : List Position :=
  windowFields (screenWindow terminal player) player (screenFloors player.z)

def rowWindow (window : Window) : Direction → Window
  | .north => { window with maxY := window.minY }
  | .east => { window with minX := window.maxX }
  | .south => { window with minY := window.maxY }
  | .west => { window with maxX := window.minX }

def sendRow (terminal : Terminal) (player : Position) (direction : Direction) : List Position :=
  windowFields (rowWindow (screenWindow terminal player) direction) player (screenFloors player.z)

def sendFloors (terminal : Terminal) (player : Position) (up : Bool) : List Position :=
  windowFields (screenWindow terminal player) player (newFloors player.z up)

/-- The player, the fields its client holds, the packets sent so far, and both after each. -/
structure Viewer where
  player : Position
  view : List Position
  packets : Nat
  history : List (Position × List Position)

section Moving

variable (terminal : Terminal) (delivered : Nat → Bool)

/-- A packet with map fields. The client that gets it adds them and drops what has left its
window; to a client that does not get it nothing happens. -/
def Viewer.send (viewer : Viewer) (fields : List Position) : Viewer :=
  let view :=
    if delivered viewer.packets then
      (viewer.view ++ fields).filter (isVisible terminal viewer.player)
    else viewer.view
  { viewer with
    view := view
    packets := viewer.packets + 1
    history := viewer.history ++ [(viewer.player, view)] }

def Viewer.place (viewer : Viewer) (player : Position) : Viewer := { viewer with player := player }

def Viewer.fullScreen (viewer : Viewer) : Viewer :=
  viewer.send terminal delivered (sendFullScreen terminal viewer.player)

def Viewer.changeFloor (up : Bool) (viewer : Viewer) : Viewer :=
  let shift : Int := if up then 1 else -1
  let moved := viewer.place
    ⟨viewer.player.x + shift, viewer.player.y + shift, viewer.player.z - shift⟩
  moved.send terminal delivered (sendFloors terminal moved.player up)

def Direction.shift (position : Position) : Direction → Position
  | .north => { position with y := position.y - 1 }
  | .east => { position with x := position.x + 1 }
  | .south => { position with y := position.y + 1 }
  | .west => { position with x := position.x - 1 }

def Viewer.changeRow (direction : Direction) (viewer : Viewer) : Viewer :=
  let moved := viewer.place (direction.shift viewer.player)
  moved.send terminal delivered (sendRow terminal moved.player direction)

/-- `NotifyGo`; each loop `while (a < b)` that counts by one is run `b - a` times. -/
def Viewer.notifyGo (viewer : Viewer) (dest : Position) : Viewer :=
  if |dest.x - viewer.player.x| ≤ 1 ∧ |dest.y - viewer.player.y| ≤ 1 ∧
      |dest.z - viewer.player.z| ≤ 1 then
    let down := (Viewer.changeFloor terminal delivered false)^[(dest.z - viewer.player.z).toNat] viewer
    let up := (Viewer.changeFloor terminal delivered true)^[(down.player.z - dest.z).toNat] down
    let east := (Viewer.changeRow terminal delivered .east)^[(dest.x - up.player.x).toNat] up
    let west := (Viewer.changeRow terminal delivered .west)^[(east.player.x - dest.x).toNat] east
    let south := (Viewer.changeRow terminal delivered .south)^[(dest.y - west.player.y).toNat] west
    (Viewer.changeRow terminal delivered .north)^[(south.player.y - dest.y).toNat] south
  else (viewer.place dest).fullScreen terminal delivered

/-- A client that is shown its first screen, and the moves of its player afterwards. -/
def walk (start : Place) (moves : List Place) : Viewer :=
  moves.foldl (fun viewer dest => viewer.notifyGo terminal delivered dest.toPosition)
    ((Viewer.mk start.toPosition [] 0 []).fullScreen terminal delivered)

end Moving

end TibiaGame.ViewWindow
