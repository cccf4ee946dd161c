import FlotillaDaemon.ThreadSteps

/-! Two races at a dock slot. `tick` tests the state once and then serves the port for as
long as lines arrive, while `disconnect` empties the module table and frees the port under
no common lock. Each section names the step that must not fall into the other operation,
and shows that nothing else can go wrong. -/
namespace FlotillaDaemon
open Cpp Retained

def ScanPlace.disconnects (place : ScanPlace) : Bool := place = .leaving || place.sweeps

/-- The channels that the `disconnect` in progress has still to empty. -/
def ScanPlace.pending (place : ScanPlace) (c : Fin maxChannels) : Bool :=
  match place with
  | .sweeping next => next ≤ c.val
  | .dropping x => x ≤ c
  | .losing x => x < c
  | _ => false

namespace Slot

def Agrees (s : Slot) : Prop :=
  match s.scan with
  | .idle => s.dock.state = .disconnected ∨ (s.dock.state = .connected ∧ s.port = .opened)
  | .leaving | .enumerating => s.dock.state = .connected ∧ s.port = .opened
  | .sweeping _ | .dropping _ | .losing _ => s.dock.state = .disconnected ∧ s.port = .opened
  | .copying | .opening | .failing => s.dock.state = .connecting
  | .shaking | .accepting => s.dock.state = .connecting ∧ s.port = .opened

theorem agrees_same (s t : Slot) (agrees : s.Agrees) (scan : t.scan = s.scan) (port : t.port = s.port)
    (state : t.dock.state = s.dock.state) : t.Agrees := by
  unfold Agrees at agrees ⊢
  rw [scan,port,state]
  exact agrees

theorem agrees_scan (s t : Slot) (agrees : s.Agrees) (move : ScanMove s t) : t.Agrees := by
  unfold Agrees at agrees
  cases move with
  | unchanged idle =>
    unfold Agrees
    exact agrees
  | lost idle up =>
    rw [idle] at agrees
    exact agrees.resolve_left up
  | returned leaving down =>
    rw [leaving] at agrees
    exact Or.inr agrees
  | torn leaving =>
    rw [leaving] at agrees
    exact ⟨rfl,agrees.2⟩
  | tested c sweeping connected =>
    rw [sweeping] at agrees
    exact agrees
  | skipped c sweeping disconnected =>
    rw [sweeping] at agrees
    exact agrees
  | closed next sweeping done =>
    rw [sweeping] at agrees
    exact Or.inl agrees.1
  | dropped c dropping =>
    rw [dropping] at agrees
    exact agrees
  | announced c losing =>
    rw [losing] at agrees
    exact agrees
  | attached idle down => exact rfl
  | copied ok copying =>
    rw [copying] at agrees
    cases ok <;> exact agrees
  | opened ok opening =>
    rw [opening] at agrees
    cases ok with
    | true => exact ⟨agrees,rfl⟩
    | false => exact agrees
  | shaken dock ok shaking state module =>
    rw [shaking] at agrees
    cases ok with
    | true => exact ⟨state.trans agrees.1,agrees.2⟩
    | false => exact state.trans agrees.1
  | failed failing => exact Or.inl rfl
  | accepted accepting =>
    rw [accepting] at agrees
    exact ⟨rfl,agrees.2⟩
  | enumerated enumerating =>
    rw [enumerating] at agrees
    exact Or.inr agrees

theorem agrees_step (s t : Slot) (action : Action) (agrees : s.Agrees) (moved : s.step action = some t) :
    t.Agrees := by
  cases action with
  | update action =>
    have effect := updateStep_effect s t action moved
    exact agrees_same s t agrees effect.scan effect.port effect.state
  | scan action => exact agrees_scan s t agrees (scanStep_move s t action moved)
  | client action =>
    have effect := clientStep_effect s t action moved
    exact agrees_same s t agrees effect.scan effect.port effect.state

section Teardown

/-- A line `c` for a disconnected channel is processed while the dock is connected, or while
the `disconnect` in progress has still to empty that channel. -/
def Covered (s : Slot) (action : Action) : Prop :=
  match s.update,action with
  | .processing line,.update .proceed => ∀ c ∈ connectsChannel line,
      (s.dock.module c).state = .moduleDisconnected → s.dock.state = .connected ∨ s.scan.pending c = true
  | _,_ => True

instance (s : Slot) (action : Action) : Decidable (s.Covered action) := by
  unfold Covered
  split <;> infer_instance

/-- The property of a slot while neither thread is inside `disconnect` or `process_command`. -/
def Emptied (s : Slot) : Prop :=
  s.update.processes = false → s.scan.disconnects = false → s.dock.state = .disconnected →
    ∀ c, (s.dock.module c).state = .moduleDisconnected

def Swept (s : Slot) : Prop :=
  s.dock.state ≠ .connected → ∀ c, s.scan.pending c = false → (s.dock.module c).state = .moduleDisconnected

theorem disconnected_of_not (m : FlotillaModule) (off : m.state ≠ .moduleConnected) :
    m.state = .moduleDisconnected := by
  cases state : m.state with
  | moduleConnected => exact absurd state off
  | moduleDisconnected => rfl

theorem swept_update (s t : Slot) (action : UpdateAction) (swept : s.Swept)
    (covered : s.Covered (.update action)) (moved : s.updateStep action = some t) : t.Swept := by
  have effect := updateStep_effect s t action moved
  intro off c visited
  rw [effect.state] at off
  rw [effect.scan] at visited
  have before := swept off c visited
  apply disconnected_of_not
  intro connected
  rcases effect.module c connected with already | ⟨line,place,named⟩
  · rw [before] at already
    contradiction
  · have proceeded : action = .proceed := by
      unfold updateStep at moved
      rw [place] at moved
      split at moved <;> first | rfl | simp_all
    subst proceeded
    unfold Covered at covered
    rw [place] at covered
    rcases covered c named before with up | waiting
    · exact off up
    · rw [waiting] at visited
      contradiction

theorem swept_scan (s t : Slot) (agrees : s.Agrees) (swept : s.Swept) (move : ScanMove s t) : t.Swept := by
  intro off c visited
  cases move with
  | unchanged idle => exact swept off c visited
  | lost idle up => exact swept off c (by rw [idle]; rfl)
  | returned leaving down => exact swept off c (by rw [leaving]; rfl)
  | torn leaving => simp [ScanPlace.pending] at visited
  | tested x sweeping connected => exact swept off c (by rw [sweeping]; exact visited)
  | skipped x sweeping disconnected =>
    by_cases own : c = x
    · exact own ▸ disconnected
    · apply swept off c
      rw [sweeping]
      simp only [ScanPlace.pending,decide_eq_false_iff_not] at visited ⊢
      have apart : c.val ≠ x.val := fun same => own (Fin.ext same)
      omega
  | closed next sweeping done =>
    apply swept off c
    have bound := c.isLt
    rw [sweeping]
    simp only [ScanPlace.pending,decide_eq_false_iff_not]
    omega
  | dropped x dropping =>
    by_cases own : c = x
    · subst own
      simp [FlotillaDock.setModule,FlotillaModule.disconnect,FlotillaModule.emptyQueue]
    · have before := swept off c (by
        rw [dropping]
        simp only [ScanPlace.pending,decide_eq_false_iff_not,Fin.lt_def,Fin.le_def] at visited ⊢
        have apart : c.val ≠ x.val := fun same => own (Fin.ext same)
        omega)
      simpa [FlotillaDock.setModule,own] using before
  | announced x losing =>
    apply swept off c
    rw [losing]
    simp only [ScanPlace.pending,decide_eq_false_iff_not,Fin.lt_def] at visited ⊢
    omega
  | attached idle down => exact swept (by rw [down]; decide) c (by rw [idle]; rfl)
  | copied ok copying => exact swept off c (by rw [copying]; rfl)
  | opened ok opening => exact swept off c (by rw [opening]; rfl)
  | shaken dock ok shaking state module =>
    have before := swept (by rw [← state]; exact off) c (by rw [shaking]; rfl)
    simpa [module] using before
  | failed failing =>
    unfold Agrees at agrees
    rw [failing] at agrees
    exact swept (by rw [agrees]; decide) c (by rw [failing]; rfl)
  | accepted accepting => exact absurd rfl off
  | enumerated enumerating => exact swept off c (by rw [enumerating]; rfl)

theorem swept_step (s t : Slot) (action : Action) (agrees : s.Agrees) (swept : s.Swept)
    (covered : s.Covered action) (moved : s.step action = some t) : t.Swept := by
  cases action with
  | update action => exact swept_update s t action swept covered moved
  | scan action => exact swept_scan s t agrees swept (scanStep_move s t action moved)
  | client action =>
    have effect := clientStep_effect s t action moved
    intro off c visited
    rw [effect.module c]
    exact swept (effect.state ▸ off) c (effect.scan ▸ visited)

theorem emptied_reached (index : Nat) (s : Slot) (reached : (slotSystem index).Reached Covered s) :
    s.Emptied := by
  have invariant := System.reached_invariant (slotSystem index) Covered (fun s => s.Agrees ∧ s.Swept)
    ⟨Or.inl rfl,fun _ _ _ => rfl⟩
    (fun s action t kept covered moved =>
      ⟨agrees_step s t action kept.1 moved,swept_step s t action kept.1 kept.2 covered moved⟩) s reached
  intro _ outside down c
  refine invariant.2 (by rw [down]; decide) c ?_
  cases place : s.scan <;> simp_all [ScanPlace.pending,ScanPlace.disconnects,ScanPlace.sweeps]

end Teardown

section DeadPort

/-- `disconnect` frees the port only while the update thread is not inside `tick`. -/
def FreesOutside (s : Slot) (action : Action) : Prop :=
  match s.scan,action with
  | .sweeping next,.scan .proceed => maxChannels ≤ next → s.update.ticking = false
  | _,_ => True

instance (s : Slot) (action : Action) : Decidable (s.FreesOutside action) := by
  unfold FreesOutside
  split <;> infer_instance

def callsPort (s : Slot) : Bool :=
  match s.update with
  | .writing => s.dock.commandQueue ≠ []
  | .draining _ | .sending _ | .ending _ | .input | .reading => true
  | _ => false

def Live (s : Slot) : Prop :=
  s.update.ticking = true → s.dock.state = .connected ∨ s.scan.sweeps = true

theorem live_scan (s t : Slot) (action : ScanAction) (agrees : s.Agrees) (live : s.Live)
    (outside : s.FreesOutside (.scan action)) (moved : s.scanStep action = some t) : t.Live := by
  intro ticking
  unfold Agrees at agrees
  cases scanStep_move s t action moved with
  | unchanged idle => exact live ticking
  | lost idle up =>
    rw [idle] at agrees
    exact Or.inl (agrees.resolve_left up).1
  | returned leaving down =>
    rw [leaving] at agrees
    exact Or.inl agrees.1
  | torn leaving => exact Or.inr rfl
  | tested c sweeping connected => exact Or.inr rfl
  | skipped c sweeping disconnected => exact Or.inr rfl
  | closed next sweeping done =>
    have proceeded : action = .proceed := by
      unfold scanStep at moved
      rw [sweeping] at moved
      split at moved <;> first | rfl | simp_all
    subst proceeded
    unfold FreesOutside at outside
    rw [sweeping] at outside
    exact Bool.noConfusion ((outside done).symm.trans ticking)
  | dropped c dropping => exact Or.inr rfl
  | announced c losing => exact Or.inr rfl
  | attached idle down =>
    have before := live ticking
    rw [idle,down] at before
    simp [ScanPlace.sweeps] at before
  | copied ok copying =>
    have before := live ticking
    rw [copying] at agrees before
    rw [agrees] at before
    simp [ScanPlace.sweeps] at before
  | opened ok opening =>
    have before := live ticking
    rw [opening] at agrees before
    rw [agrees] at before
    simp [ScanPlace.sweeps] at before
  | shaken dock ok shaking state module =>
    have before := live ticking
    rw [shaking] at agrees before
    rw [agrees.1] at before
    simp [ScanPlace.sweeps] at before
  | failed failing =>
    have before := live ticking
    rw [failing] at agrees before
    rw [agrees] at before
    simp [ScanPlace.sweeps] at before
  | accepted accepting => exact Or.inl rfl
  | enumerated enumerating =>
    rw [enumerating] at agrees
    exact Or.inl agrees.1

theorem live_step (s t : Slot) (action : Action) (agrees : s.Agrees) (live : s.Live)
    (outside : s.FreesOutside action) (moved : s.step action = some t) : t.Live := by
  cases action with
  | update action =>
    have effect := updateStep_effect s t action moved
    intro ticking
    rw [effect.state,effect.scan]
    rcases effect.ticking ticking with before | connected
    · exact live before
    · exact Or.inl connected
  | scan action => exact live_scan s t action agrees live outside moved
  | client action =>
    have effect := clientStep_effect s t action moved
    intro ticking
    rw [effect.state,effect.scan]
    exact live (effect.update ▸ ticking)

theorem agrees_opened (s : Slot) (agrees : s.Agrees)
    (up : s.dock.state = .connected ∨ s.scan.sweeps = true) : s.port = .opened := by
  unfold Agrees at agrees
  cases place : s.scan <;> simp_all [ScanPlace.sweeps]

theorem callsPort_ticking (s : Slot) (calls : s.callsPort = true) : s.update.ticking = true := by
  unfold callsPort at calls
  split at calls <;> simp_all [UpdatePlace.ticking]

theorem opened_reached (index : Nat) (s : Slot) (reached : (slotSystem index).Reached FreesOutside s)
    (calls : s.callsPort = true) : s.port = .opened := by
  have invariant := System.reached_invariant (slotSystem index) FreesOutside (fun s => s.Agrees ∧ s.Live)
    ⟨Or.inl rfl,fun ticking => nomatch ticking⟩
    (fun s action t kept outside moved =>
      ⟨agrees_step s t action kept.1 moved,live_step s t action kept.1 kept.2 outside moved⟩) s reached
  exact agrees_opened s invariant.1 (invariant.2 (callsPort_ticking s calls))

end DeadPort

end Slot

open Slot

section Runs

def arriving (text : Text) : List Arrival := text.map .byte

def attaching : List Action :=
  [.scan .found,.scan (.outcome true),.scan (.outcome true),
    .scan (.handshake true (arriving
      "# Version: 1.0\n# Serial: 0123456789012345678901\n# User: a\n# Dock: b\n".toList)),
    .scan .proceed,.scan .proceed]

def listening : List Action := .update .updateDocks :: List.replicate 11 (.update .proceed)

def reading (line : Text) : List Action := [.update (.waiting true),.update (.readline (arriving line))]

def processing : List Action := List.replicate 2 (.update .proceed)

def detaching (modules : Nat) : List Action := .scan .missing :: List.replicate (10 + 2 * modules) (.scan .proceed)

def firstDock (s : Slot) : Fin maxDocks → Slot := Function.update daemon.initial 0 s

theorem firstDock_reached (condition : Slot → Action → Prop) (actions : List Action) (s : Slot)
    (meets : (slotSystem 0).Meets condition (.new 0) actions) (ran : (slotSystem 0).run (.new 0) actions = some s) :
    daemon.Reached (fun docks action => action.1 = 0 → condition (docks 0) action.2) (firstDock s) :=
  System.family_embed _ _ 0 (fun docks action => threadFree_alone 0 docks action) condition s
    (System.reached_run _ condition (.new 0) s actions .start meets ran)

end Runs

/-- A torn-down dock holds no module, in every run of the daemon in which each line that
connects a channel of that dock is covered. -/
theorem torn_down_emptied (dockIdx : Fin maxDocks) (docks : Fin maxDocks → Slot)
    (reached : daemon.Reached (fun docks action => action.1 = dockIdx → (docks dockIdx).Covered action.2) docks) :
    (docks dockIdx).Emptied :=
  emptied_reached dockIdx.val _ (System.family_reached _ _ dockIdx Covered docks reached)

def unplugged : Slot :=
  ((slotSystem 0).run (.new 0) (attaching ++ listening ++ reading "c 1/dial\n".toList ++ processing ++
    [.update (.waiting false)] ++ detaching 1)).get (by decide +kernel)

theorem torn_down_emptied_dial : (((firstDock unplugged) 0).dock.module 0).state = .moduleDisconnected :=
  torn_down_emptied 0 (firstDock unplugged)
    (firstDock_reached Covered _ unplugged (by decide +kernel) (Option.some_get _).symm)
    (by decide +kernel) (by decide +kernel) (by decide +kernel) 0

def lateConnect : Slot :=
  ((slotSystem 0).run (.new 0) (attaching ++ listening ++ reading "c 1/dial\n".toList ++ detaching 0 ++
    processing)).get (by decide +kernel)

theorem torn_down_holds_dial :
    ¬ ∀ (dockIdx : Fin maxDocks) (docks : Fin maxDocks → Slot),
      daemon.Reached (fun _ _ => True) docks → (docks dockIdx).Emptied := by
  intro emptied
  have ran := firstDock_reached (fun _ _ => True) _ lateConnect (by decide +kernel) (Option.some_get _).symm
  have reached := System.reached_weaken _ _ (fun _ _ => True) (fun _ _ _ => trivial) _ ran
  exact absurd (emptied 0 _ reached (by decide +kernel) (by decide +kernel) (by decide +kernel) 0)
    (by decide +kernel)

/-- `tick` calls the serial library on an open port, in every run of the daemon in which the
port of that dock is freed outside `tick` only. -/
theorem calls_open_port (dockIdx : Fin maxDocks) (docks : Fin maxDocks → Slot)
    (reached : daemon.Reached
      (fun docks action => action.1 = dockIdx → (docks dockIdx).FreesOutside action.2) docks)
    (calls : (docks dockIdx).callsPort = true) : (docks dockIdx).port = .opened :=
  opened_reached dockIdx.val _ (System.family_reached _ _ dockIdx FreesOutside docks reached) calls

def waitingForInput : Slot := ((slotSystem 0).run (.new 0) (attaching ++ listening)).get (by decide +kernel)

theorem calls_open_port_input : ((firstDock waitingForInput) 0).port = .opened :=
  calls_open_port 0 (firstDock waitingForInput)
    (firstDock_reached FreesOutside _ waitingForInput (by decide +kernel) (Option.some_get _).symm)
    (by decide +kernel)

def freedInside : Slot :=
  ((slotSystem 0).run (.new 0) (attaching ++ listening ++ detaching 0)).get (by decide +kernel)

theorem calls_freed_port :
    ¬ ∀ (dockIdx : Fin maxDocks) (docks : Fin maxDocks → Slot), daemon.Reached (fun _ _ => True) docks →
      (docks dockIdx).callsPort = true → (docks dockIdx).port = .opened := by
  intro opened
  have ran := firstDock_reached (fun _ _ => True) _ freedInside (by decide +kernel) (Option.some_get _).symm
  have reached := System.reached_weaken _ _ (fun _ _ => True) (fun _ _ _ => trivial) _ ran
  exact absurd (opened 0 _ reached (by decide +kernel)) (by decide +kernel)

end FlotillaDaemon
