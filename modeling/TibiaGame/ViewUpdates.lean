import TibiaGame.ViewWindow

/-!
# Incremental updates show a full screen

Along a diagonal floor change the window of every floor stays where it is, since
it is skewed by one field for each floor; so a packet with floors has to add
whole floors only, and a row the fields of one column or row of each floor.
-/

namespace TibiaGame.ViewUpdates

open ViewWindow List

variable {terminal : Terminal} {delivered : Nat → Bool} {player point : Position}
  {view : List Position} {viewer : Viewer}

section

variable (direction : Direction) (up : Bool) {moved : Position} (value : Int) (turns : Nat)

def OnMap (position : Position) : Prop := 0 ≤ position.z ∧ position.z ≤ 15

theorem count_up (fuel : Nat) (first value : Int) :
    value ∈ countUntil (first + fuel) 1 fuel first ↔ first ≤ value ∧ value < first + fuel := by
  induction fuel generalizing first with
  | zero => simp [countUntil]
  | succ fuel ih =>
    have next : first + ((fuel + 1 : Nat) : Int) = (first + 1) + fuel := by omega
    have notLast : first ≠ (first + 1) + fuel := by omega
    rw [next, countUntil, if_neg notLast, mem_cons, ih]
    omega

theorem count_down (fuel : Nat) (first value : Int) :
    value ∈ countUntil (first - fuel) (-1) fuel first ↔ first - fuel < value ∧ value ≤ first := by
  induction fuel generalizing first with
  | zero => simp [countUntil]
  | succ fuel ih =>
    have next : first - ((fuel + 1 : Nat) : Int) = (first + -1) - fuel := by omega
    have notLast : first ≠ (first + -1) - fuel := by omega
    rw [next, countUntil, if_neg notLast, mem_cons, ih]
    omega

theorem floors_up {first last : Int} (ordered : first ≤ last) (value : Int) :
    value ∈ (Floors.mk first last 1).values ↔ first ≤ value ∧ value < last := by
  have reached : last = first + (last - first).natAbs := by omega
  have counted := count_up (last - first).natAbs first value
  rw [← reached] at counted
  exact counted

theorem floors_down {first last : Int} (ordered : last ≤ first) (value : Int) :
    value ∈ (Floors.mk first last (-1)).values ↔ last < value ∧ value ≤ first := by
  have reached : last = first - (last - first).natAbs := by omega
  have counted := count_down (last - first).natAbs first value
  rw [← reached] at counted
  exact counted

theorem screen_floors_mem (onMap : OnMap player) (value : Int) :
    value ∈ (screenFloors player.z).values ↔
      player.z ≤ 7 ∧ 0 ≤ value ∧ value ≤ 7 ∨
        7 < player.z ∧ player.z - 2 ≤ value ∧ value ≤ player.z + 2 ∧ value ≤ 15 := by
  have high := onMap.2
  unfold screenFloors
  split_ifs with surface
  · rw [floors_down (by omega)]
    omega
  · rw [floors_up (by omega)]
    omega

theorem new_floors_up :
    value ∈ (newFloors player.z true).values ↔
      player.z = 7 ∧ 0 ≤ value ∧ value ≤ 5 ∨ player.z > 7 ∧ value = player.z - 2 := by
  unfold newFloors
  rw [if_pos rfl]
  split_ifs with surface below
  · rw [floors_down (by omega)]
    omega
  · rw [floors_down (by omega)]
    omega
  · simp [Floors.values, countUntil]
    omega

theorem new_floors_down :
    value ∈ (newFloors player.z false).values ↔
      player.z = 8 ∧ 8 ≤ value ∧ value ≤ 10 ∨
        player.z > 8 ∧ player.z + 2 ≤ 15 ∧ value = player.z + 2 := by
  unfold newFloors
  rw [if_neg (by simp)]
  split_ifs with surface below
  · rw [floors_up (by omega)]
    omega
  · rw [floors_up (by omega)]
    omega
  · simp [Floors.values, countUntil]
    omega

theorem count_to_mem (first last value : Int) :
    value ∈ countTo first last ↔ first ≤ value ∧ value ≤ last := by
  simp only [countTo, mem_map, mem_range]
  constructor
  · intro found
    omega
  · intro between
    exact ⟨(value - first).toNat, by omega, by omega⟩

/-- A field is sent when its floor is and its shifted column and row are in the window. -/
theorem window_fields_mem (window : Window) (floors : Floors) :
    point ∈ windowFields window player floors ↔ point.z ∈ floors.values ∧
      (window.minX ≤ point.x - (player.z - point.z) ∧ point.x - (player.z - point.z) ≤ window.maxX) ∧
      (window.minY ≤ point.y - (player.z - point.z) ∧
        point.y - (player.z - point.z) ≤ window.maxY) := by
  simp only [windowFields, mem_flatMap, mem_map, count_to_mem]
  constructor
  · intro found
    rcases found with ⟨pointZ, onFloor, pointX, column, pointY, row, same⟩
    rw [← same]
    exact ⟨onFloor, by simpa using column, by simpa using row⟩
  intro inside
  exists point.z
  constructor
  · exact inside.1
  · exact ⟨_, inside.2.1, _, inside.2.2, by ext <;> simp⟩

theorem is_visible_iff :
    isVisible terminal player point = true ↔
      (player.z ≤ 7 ∧ point.z ≤ 7 ∨
        7 < player.z ∧ player.z - 2 ≤ point.z ∧ point.z ≤ player.z + 2) ∧
      (player.x - terminal.offsetX ≤ point.x - (player.z - point.z) ∧
        point.x - (player.z - point.z) ≤ player.x - terminal.offsetX + terminal.width - 1) ∧
      (player.y - terminal.offsetY ≤ point.y - (player.z - point.z) ∧
        point.y - (player.z - point.z) ≤ player.y - terminal.offsetY + terminal.height - 1) := by
  unfold isVisible
  by_cases surface : player.z ≤ 7
  · simp [surface]
    omega
  simp [surface, abs_le]
  omega

/-- The fields of a full screen are the visible ones on the floors of the map. -/
theorem full_screen_visible (onMap : OnMap player) :
    point ∈ sendFullScreen terminal player ↔
      isVisible terminal player point = true ∧ OnMap point := by
  rw [sendFullScreen, window_fields_mem, screen_floors_mem onMap, is_visible_iff, OnMap]
  simp only [screenWindow]
  omega

/-- The fields a client has received for its view are those that its player sees. -/
def Exact (terminal : Terminal) (player : Position) (view : List Position) : Prop :=
  ∀ point, point ∈ view ↔ isVisible terminal player point = true ∧ OnMap point

theorem exact_full_screen (onMap : OnMap player) (exact' : Exact terminal player view) (point : Position) :
    point ∈ view ↔ point ∈ sendFullScreen terminal player := by
  rw [exact' point, full_screen_visible onMap]

/-- What a packet has to contain for a client whose view is known. -/
def Completes (terminal : Terminal) (player : Position) (view fields : List Position) : Prop :=
  ∀ point, isVisible terminal player point = true →
    (OnMap point ↔ point ∈ view ∨ point ∈ fields)

theorem completes_exact {fields : List Position}
    (completes : Completes terminal player view fields) :
    Exact terminal player ((view ++ fields).filter (isVisible terminal player)) := by
  intro point
  rw [mem_filter, mem_append, and_comm]
  apply and_congr_right
  intro visible
  exact (completes point visible).symm

theorem full_screen_completes (onMap : OnMap player) (known : ∀ point ∈ view, OnMap point) :
    Completes terminal player view (sendFullScreen terminal player) := by
  intro point visible
  constructor
  · intro here
    exact .inr ((full_screen_visible onMap).mpr ⟨visible, here⟩)
  intro held
  rcases held with old | sent
  · exact known point old
  · exact ((full_screen_visible onMap).mp sent).2

theorem floors_complete_down (onMap : OnMap moved)
    (shifted : moved.x = player.x - 1 ∧ moved.y = player.y - 1 ∧ moved.z = player.z + 1)
    (exact' : Exact terminal player view) :
    Completes terminal moved view (sendFloors terminal moved false) := by
  intro point visible
  have high := onMap.2
  rw [exact' point, sendFloors, window_fields_mem, new_floors_down, is_visible_iff]
  rw [is_visible_iff] at visible
  simp only [screenWindow, OnMap]
  omega

theorem floors_complete_up (onMap : OnMap moved)
    (shifted : moved.x = player.x + 1 ∧ moved.y = player.y + 1 ∧ moved.z = player.z - 1)
    (exact' : Exact terminal player view) :
    Completes terminal moved view (sendFloors terminal moved true) := by
  intro point visible
  have high := onMap.2
  rw [exact' point, sendFloors, window_fields_mem, new_floors_up, is_visible_iff]
  rw [is_visible_iff] at visible
  simp only [screenWindow, OnMap]
  omega

theorem row_completes (onMap : OnMap player) (exact' : Exact terminal player view) :
    Completes terminal (direction.shift player) view
      (sendRow terminal (direction.shift player) direction) := by
  intro point visible
  have shiftedMap : OnMap (direction.shift player) := by
    cases direction <;> exact onMap
  rw [exact' point, sendRow, window_fields_mem, screen_floors_mem shiftedMap, is_visible_iff]
  rw [is_visible_iff] at visible
  cases direction <;>
    simp only [Direction.shift, rowWindow, screenWindow, OnMap] at visible ⊢ <;> omega

/-- While every packet has been delivered, the view is exact now and was after each of them. -/
structure Shown (terminal : Terminal) (delivered : Nat → Bool) (viewer : Viewer) : Prop where
  onMap : OnMap viewer.player
  views : (∀ packet < viewer.packets, delivered packet = true) →
    Exact terminal viewer.player viewer.view ∧
      ∀ after ∈ viewer.history, Exact terminal after.1 after.2 ∧ OnMap after.1

/-- A packet that completes the view, sent from the new position of the player. -/
theorem packet_shown {fields : List Position} (onMap : OnMap moved)
    (earlier : (∀ packet < viewer.packets, delivered packet = true) →
      Completes terminal moved viewer.view fields ∧
        ∀ after ∈ viewer.history, Exact terminal after.1 after.2 ∧ OnMap after.1) :
    Shown terminal delivered ((viewer.place moved).send terminal delivered fields) := by
  constructor
  · exact onMap
  intro arrive
  have before := earlier fun packet below => arrive packet (Nat.lt_succ_of_lt below)
  have here : delivered viewer.packets = true := arrive viewer.packets (Nat.lt_succ_self _)
  have shows : Exact terminal moved ((viewer.place moved).send terminal delivered fields).view := by
    simp only [Viewer.send, Viewer.place, here, if_true]
    exact completes_exact before.1
  constructor
  · exact shows
  intro after member
  rcases mem_append.mp member with old | last
  · exact before.2 after old
  rw [mem_singleton.mp last]
  exact ⟨shows, onMap⟩

theorem sent_shown {fields : List Position} (shown : Shown terminal delivered viewer)
    (onMap : OnMap moved)
    (completes : Exact terminal viewer.player viewer.view →
      Completes terminal moved viewer.view fields) :
    Shown terminal delivered ((viewer.place moved).send terminal delivered fields) := by
  apply packet_shown onMap
  intro arrive
  have held := shown.views arrive
  exact ⟨completes held.1, held.2⟩

theorem full_screen_shown {dest : Position} (shown : Shown terminal delivered viewer)
    (onMap : OnMap dest) :
    Shown terminal delivered ((viewer.place dest).fullScreen terminal delivered) := by
  apply sent_shown shown onMap
  intro held
  apply full_screen_completes onMap
  intro point member
  exact ((held point).mp member).2

theorem change_row_shown (shown : Shown terminal delivered viewer) :
    Shown terminal delivered (viewer.changeRow terminal delivered direction) := by
  apply sent_shown shown
  · cases direction <;> exact shown.onMap
  · exact row_completes direction shown.onMap

theorem change_floor_shown (shown : Shown terminal delivered viewer)
    (room : OnMap (viewer.changeFloor terminal delivered up).player) :
    Shown terminal delivered (viewer.changeFloor terminal delivered up) := by
  apply sent_shown shown room
  cases up with
  | false => exact floors_complete_down room ⟨rfl, rfl, sub_neg_eq_add _ _⟩
  | true => exact floors_complete_up room ⟨rfl, rfl, rfl⟩

theorem rows_shown (shown : Shown terminal delivered viewer) :
    Shown terminal delivered ((Viewer.changeRow terminal delivered direction)^[turns] viewer) := by
  induction turns with
  | zero => exact shown
  | succ turns ih =>
    rw [Function.iterate_succ_apply']
    exact change_row_shown direction ih

theorem rows_player (viewer : Viewer) :
    ((Viewer.changeRow terminal delivered direction)^[turns] viewer).player =
      direction.shift^[turns] viewer.player := by
  induction turns with
  | zero => rfl
  | succ turns ih =>
    rw [Function.iterate_succ_apply', Function.iterate_succ_apply', ← ih]
    rfl

theorem shifts_position (position : Position) :
    direction.shift^[turns] position =
      match direction with
      | .north => { position with y := position.y - turns }
      | .east => { position with x := position.x + turns }
      | .south => { position with y := position.y + turns }
      | .west => { position with x := position.x - turns } := by
  induction turns with
  | zero => cases direction <;> simp
  | succ turns ih =>
    rw [Function.iterate_succ_apply', ih]
    cases direction <;> simp only [Direction.shift, Nat.cast_succ] <;> congr 1 <;> omega

theorem floors_player (viewer : Viewer) :
    ((Viewer.changeFloor terminal delivered up)^[turns] viewer).player =
      if up then ⟨viewer.player.x + turns, viewer.player.y + turns, viewer.player.z - turns⟩
      else ⟨viewer.player.x - turns, viewer.player.y - turns, viewer.player.z + turns⟩ := by
  induction turns with
  | zero => cases up <;> simp
  | succ turns ih =>
    rw [Function.iterate_succ_apply']
    simp only [Viewer.changeFloor, Viewer.send, Viewer.place, ih]
    cases up <;> simp <;> omega

theorem floors_shown (shown : Shown terminal delivered viewer)
    (room : OnMap ((Viewer.changeFloor terminal delivered up)^[turns] viewer).player) :
    Shown terminal delivered ((Viewer.changeFloor terminal delivered up)^[turns] viewer) := by
  induction turns with
  | zero => exact shown
  | succ turns ih =>
    have start := shown.onMap
    have earlier : OnMap ((Viewer.changeFloor terminal delivered up)^[turns] viewer).player := by
      rw [floors_player] at room ⊢
      cases up <;> simp only [OnMap, if_true, Bool.false_eq_true, if_false] at start room ⊢ <;>
        omega
    rw [Function.iterate_succ_apply'] at room ⊢
    exact change_floor_shown up (ih earlier) room

/-- The loops of `NotifyGo` end at the new position, wherever they start. -/
theorem notify_go_player (viewer : Viewer) (dest : Position) :
    (viewer.notifyGo terminal delivered dest).player = dest := by
  unfold Viewer.notifyGo
  split_ifs with near
  · simp only [rows_player, shifts_position, floors_player, if_true, Bool.false_eq_true, if_false]
    ext
    all_goals
      simp only
      omega
  · rfl

theorem notify_go_shown {dest : Position} (shown : Shown terminal delivered viewer)
    (onMap : OnMap dest) : Shown terminal delivered (viewer.notifyGo terminal delivered dest) := by
  unfold Viewer.notifyGo
  split_ifs with near
  · have start := shown.onMap
    have down : Shown terminal delivered ((Viewer.changeFloor terminal delivered false)^[
        (dest.z - viewer.player.z).toNat] viewer) := by
      apply floors_shown false _ shown
      rw [floors_player]
      simp only [OnMap, Bool.false_eq_true, if_false] at start onMap ⊢
      omega
    have up : Shown terminal delivered ((Viewer.changeFloor terminal delivered true)^[
        (((Viewer.changeFloor terminal delivered false)^[
          (dest.z - viewer.player.z).toNat] viewer).player.z - dest.z).toNat]
        ((Viewer.changeFloor terminal delivered false)^[
          (dest.z - viewer.player.z).toNat] viewer)) := by
      apply floors_shown true _ down
      have here := down.onMap
      rw [floors_player]
      simp only [OnMap, if_true] at here onMap ⊢
      omega
    apply rows_shown
    apply rows_shown
    apply rows_shown
    apply rows_shown
    exact up
  · exact full_screen_shown shown onMap

theorem walk_shown (start : Place) (moves : List Place) :
    Shown terminal delivered (walk terminal delivered start moves) := by
  induction moves using List.reverseRecOn with
  | nil =>
    have first : Shown terminal delivered (((Viewer.mk start.toPosition [] 0 []).place
        start.toPosition).send terminal delivered (sendFullScreen terminal start.toPosition)) := by
      apply packet_shown start.floor
      intro _
      constructor
      · apply full_screen_completes start.floor
        nofun
      · nofun
    exact first
  | append_singleton earlier dest ih =>
    rw [walk, foldl_append]
    exact notify_go_shown ih dest.floor

theorem walk_player (start : Place) (moves : List Place) :
    (walk terminal delivered start moves).player =
      (moves.getLastD start).toPosition := by
  induction moves using List.reverseRecOn with
  | nil => rfl
  | append_singleton earlier dest ih =>
    rw [walk, foldl_append, getLastD_concat]
    exact notify_go_player _ dest.toPosition

/-- For every start and all moves: as long as every packet of the walk reaches the client,
the fields it has received are after each packet, and at the end, those that the player
sees, which is what a full screen sent there would hold. -/
theorem updates_show_screen (terminal : Terminal) (delivered : Nat → Bool) (start : Place)
    (moves : List Place)
    (arrive : ∀ packet < (walk terminal delivered start moves).packets, delivered packet = true) :
    (walk terminal delivered start moves).player = (moves.getLastD start).toPosition ∧
      ∀ after ∈ ((walk terminal delivered start moves).player,
          (walk terminal delivered start moves).view) :: (walk terminal delivered start moves).history,
        ∀ point : Position,
          (point ∈ after.2 ↔
            isVisible terminal after.1 point = true ∧ 0 ≤ point.z ∧ point.z ≤ 15) ∧
          (point ∈ after.2 ↔ point ∈ sendFullScreen terminal after.1) := by
  have shown : Shown terminal delivered (walk terminal delivered start moves) := walk_shown start moves
  have views := shown.views arrive
  constructor
  · exact walk_player start moves
  · intro after member point
    have held : Exact terminal after.1 after.2 ∧ OnMap after.1 := by
      rcases mem_cons.mp member with now | before
      · rw [now]
        exact ⟨views.1, shown.onMap⟩
      · exact views.2 after before
    exact ⟨held.1 point, exact_full_screen held.2 held.1 point⟩

/-- A field in the east of the temple, seen from one step to the east. -/
theorem updates_show_screen_east :
    (⟨110, 100, 7⟩ : Position) ∈
      (walk joined (fun _ => true) ⟨⟨100, 100, 7⟩, by decide⟩ [⟨⟨101, 100, 7⟩, by decide⟩]).view := by
  have shows := (updates_show_screen joined (fun _ => true) ⟨⟨100, 100, 7⟩, by decide⟩
    [⟨⟨101, 100, 7⟩, by decide⟩] (fun _ _ => rfl)).2 _ mem_cons_self ⟨110, 100, 7⟩
  apply shows.1.mpr
  rw [walk_player]
  decide

theorem row_refused (refused : delivered viewer.packets = false) :
    (viewer.changeRow terminal delivered direction).view = viewer.view := by
  simp [Viewer.changeRow, Viewer.send, Viewer.place, refused]

theorem notify_go_east (viewer : Viewer) :
    viewer.notifyGo terminal delivered (Direction.east.shift viewer.player) =
      viewer.changeRow terminal delivered .east := by
  simp [Viewer.notifyGo, Direction.shift, Viewer.changeRow, Viewer.send, Viewer.place]

/-- The packet with the row is refused, as by a full output buffer: the client keeps its
view, and the column that its player sees now is missing. -/
theorem refused_row_missing :
    ∃ (delivered : Nat → Bool) (start : Place) (moves : List Place) (point : Position),
      isVisible joined (walk joined delivered start moves).player point = true ∧
        (0 ≤ point.z ∧ point.z ≤ 15) ∧ point ∉ (walk joined delivered start moves).view := by
  let delivered : Nat → Bool := fun packet => decide (packet = 0)
  let start : Place := ⟨⟨100, 100, 7⟩, by decide⟩
  let dest : Place := ⟨⟨101, 100, 7⟩, by decide⟩
  have kept : (walk joined delivered start [dest]).view = (walk joined delivered start []).view := by
    have east : walk joined delivered start [dest] =
        (walk joined delivered start []).changeRow joined delivered .east :=
      notify_go_east (walk joined delivered start [])
    rw [east]
    exact row_refused .east rfl
  have shown : Shown joined delivered (walk joined delivered start []) := walk_shown start []
  have first : Exact joined start.toPosition (walk joined delivered start []).view := by
    have views := shown.views fun packet before => decide_eq_true (Nat.lt_one_iff.mp before)
    rw [walk_player] at views
    exact views.1
  refine ⟨delivered, start, [dest], ⟨110, 100, 7⟩, ?_⟩
  constructor
  · rw [walk_player]
    decide
  · constructor
    · decide
    · rw [kept, first]
      intro seen
      exact absurd seen.1 (by decide)

end

end TibiaGame.ViewUpdates
