import FlotillaDaemon.Threads

/-! What a step of each thread can do to a slot: the update thread never changes the state
or the port, and only a line `c` connects a module; the scan thread is the only one that
changes the state and the port. -/
namespace FlotillaDaemon
open Cpp Retained

/-- The channel a line connects, as `process_command` reads it. -/
def connectsChannel (line : Text) : Option (Fin maxChannels) :=
  if line.head? = some 'c' then
    ((FlotillaDock.lineChannel line).bind (fun found => arrayIndex maxChannels found.1)).toOption
  else none

def UpdatePlace.ticking : UpdatePlace → Bool
  | .away | .called | .flushed | .serving _ => false
  | _ => true

def UpdatePlace.processes : UpdatePlace → Bool
  | .processing _ | .announcing _ => true
  | _ => false

/-- The steps that begin an operation at a dock. -/
def UpdateAction.begins : UpdateAction → Bool
  | .updateDocks | .updateClients => true
  | _ => false

def ScanAction.begins : ScanAction → Bool
  | .missing | .found => true
  | _ => false

def ScanPlace.sweeps : ScanPlace → Bool
  | .sweeping _ | .dropping _ | .losing _ => true
  | _ => false

namespace FlotillaDock

theorem processInformation_frame (dock next : FlotillaDock) (command : Text)
    (processed : dock.processInformation command = .ok next) :
    next.state = dock.state ∧ next.module = dock.module := by
  unfold processInformation at processed
  split at processed
  · obtain ⟨user,_,returned⟩ := (bind_ok_iff _ _ _).mp processed
    rw [← Except.ok.inj returned]
    exact ⟨rfl,rfl⟩
  · split at processed
    · obtain ⟨name,_,returned⟩ := (bind_ok_iff _ _ _).mp processed
      rw [← Except.ok.inj returned]
      exact ⟨rfl,rfl⟩
    · obtain ⟨debug,_,returned⟩ := (bind_ok_iff _ _ _).mp processed
      rw [← Except.ok.inj returned]
      exact ⟨rfl,rfl⟩

theorem processUpdate_frame (dock next : FlotillaDock) (command : Text)
    (processed : dock.processUpdate command = .ok next) :
    next.state = dock.state ∧ ∀ c, (next.module c).state = (dock.module c).state := by
  unfold processUpdate at processed
  obtain ⟨⟨channel,size⟩,_,rest⟩ := (bind_ok_iff _ _ _).mp processed
  change (if channel < maxChannels then _ else _) = _ at rest
  split at rest
  · obtain ⟨c,_,rest⟩ := (bind_ok_iff _ _ _).mp rest
    obtain ⟨data,_,returned⟩ := (bind_ok_iff _ _ _).mp rest
    rw [← Except.ok.inj returned]
    exact ⟨rfl,dock.setModule_states c _ rfl⟩
  · rw [← Except.ok.inj rest]
    exact ⟨rfl,fun _ => rfl⟩

theorem changeLine_cases (change : Text → FlotillaModule → FlotillaModule) (dock next : FlotillaDock)
    (command : Text) (changed : Option (Fin maxChannels))
    (applied : dock.changeLine change command = .ok (next,changed)) :
    (next = dock ∧ changed = none) ∨
      ∃ c name, (lineChannel command).bind (fun found => arrayIndex maxChannels found.1) = .ok c ∧
        next = dock.setModule c (change name (dock.module c)) ∧ changed = some c := by
  unfold changeLine at applied
  obtain ⟨⟨channel,size⟩,read,rest⟩ := (bind_ok_iff _ _ _).mp applied
  change (if channel < maxChannels then _ else _) = _ at rest
  split at rest
  · obtain ⟨name,_,rest⟩ := (bind_ok_iff _ _ _).mp rest
    obtain ⟨c,indexed,returned⟩ := (bind_ok_iff _ _ _).mp rest
    obtain ⟨rfl,rfl⟩ := Prod.mk.inj (Except.ok.inj returned)
    refine Or.inr ⟨c,name,?_,rfl,rfl⟩
    rw [read]
    exact indexed
  · obtain ⟨rfl,rfl⟩ := Prod.mk.inj (Except.ok.inj rest)
    exact Or.inl ⟨rfl,rfl⟩

theorem applyLine_frame (dock next : FlotillaDock) (command : Text) (changed : Option (Fin maxChannels))
    (applied : dock.applyLine command = .ok (next,changed)) :
    next.state = dock.state ∧ ∀ c, (next.module c).state = .moduleConnected →
      (dock.module c).state = .moduleConnected ∨ connectsChannel command = some c := by
  cases command with
  | nil => contradiction
  | cons first rest =>
    change (if first = '#' then _ else if first = 'u' then _ else if first = 'd' then _
      else if first = 'c' then _ else _) = _ at applied
    split at applied
    · obtain ⟨processed,informed,returned⟩ := (bind_ok_iff _ _ _).mp applied
      obtain ⟨rfl,_⟩ := Prod.mk.inj (Except.ok.inj returned)
      obtain ⟨state,module⟩ := processInformation_frame _ _ _ informed
      exact ⟨state,fun c connected => Or.inl (module ▸ connected)⟩
    · split at applied
      · obtain ⟨processed,updated,returned⟩ := (bind_ok_iff _ _ _).mp applied
        obtain ⟨rfl,_⟩ := Prod.mk.inj (Except.ok.inj returned)
        obtain ⟨state,modules⟩ := processUpdate_frame _ _ _ updated
        exact ⟨state,fun c connected => Or.inl (modules c ▸ connected)⟩
      · split at applied
        · rcases changeLine_cases _ _ _ _ _ applied with ⟨rfl,_⟩ | ⟨channel,name,_,rfl,_⟩
          · exact ⟨rfl,fun c connected => Or.inl connected⟩
          · refine ⟨rfl,fun c connected => Or.inl ?_⟩
            by_cases own : c = channel
            · subst own
              simp [setModule,FlotillaModule.disconnect,FlotillaModule.emptyQueue] at connected
            · simpa [setModule,own] using connected
        · split at applied
          next letter =>
            rcases changeLine_cases _ _ _ _ _ applied with ⟨rfl,_⟩ | ⟨channel,name,read,rfl,_⟩
            · exact ⟨rfl,fun c connected => Or.inl connected⟩
            · refine ⟨rfl,fun c connected => ?_⟩
              by_cases own : c = channel
              · subst own
                apply Or.inr
                rw [connectsChannel,if_pos (show (first :: rest).head? = some 'c' from congrArg some letter),read]
                rfl
              · exact Or.inl (by simpa [setModule,own] using connected)
          next other =>
            obtain ⟨rfl,_⟩ := Prod.mk.inj (Except.ok.inj applied)
            exact ⟨rfl,fun c connected => Or.inl connected⟩

end FlotillaDock

namespace Slot

theorem eachChannel_inside {P : Type} (next : Nat) (bound : next < maxChannels) (inside : Fin maxChannels → P)
    (done : P) : eachChannel next inside done = inside ⟨next,bound⟩ := dif_pos bound

theorem eachChannel_done {P : Type} (next : Nat) (bound : ¬ next < maxChannels) (inside : Fin maxChannels → P)
    (done : P) : eachChannel next inside done = done := dif_neg bound

structure UpdateEffect (s t : Slot) : Prop where
  port : t.port = s.port
  scan : t.scan = s.scan
  state : t.dock.state = s.dock.state
  ticking : t.update.ticking = true → s.update.ticking = true ∨ s.dock.state = .connected
  module : ∀ c, (t.dock.module c).state = .moduleConnected → (s.dock.module c).state = .moduleConnected ∨
    ∃ line, s.update = .processing line ∧ connectsChannel line = some c

theorem moves_place (s : Slot) (place : UpdatePlace)
    (ticking : place.ticking = true → s.update.ticking = true ∨ s.dock.state = .connected) :
    UpdateEffect s {s with update := place} :=
  ⟨rfl,rfl,rfl,ticking,fun _ connected => Or.inl connected⟩

theorem moves_dock (s : Slot) (dock : FlotillaDock) (place : UpdatePlace) (state : dock.state = s.dock.state)
    (modules : ∀ c, (dock.module c).state = (s.dock.module c).state)
    (ticking : place.ticking = true → s.update.ticking = true ∨ s.dock.state = .connected) :
    UpdateEffect s {s with dock := dock,update := place} :=
  ⟨rfl,rfl,state,ticking,fun c connected => Or.inl (modules c ▸ connected)⟩

theorem moves_inside (s : Slot) (place : UpdatePlace) (inside : s.update.ticking = true) :
    UpdateEffect s {s with update := place} := moves_place s place fun _ => Or.inl inside

theorem updateStep_effect (s t : Slot) (action : UpdateAction) (moved : s.updateStep action = some t) :
    UpdateEffect s t := by
  unfold updateStep at moved
  split at moved
  case h_1 | h_2 =>
    rw [← Option.some.inj moved]
    refine moves_place s _ fun ticking => Or.inr ?_
    by_contra off
    rw [if_neg off] at ticking
    contradiction
  case h_3 place =>
    split at moved
    next empty =>
      rw [← Option.some.inj moved]
      exact moves_inside s _ (by rw [place]; rfl)
    next front rest waiting =>
      rw [← Option.some.inj moved]
      exact moves_dock s _ s.update rfl (fun _ => rfl) fun ticking => Or.inl ticking
  case h_5 c place =>
    rw [← Option.some.inj moved]
    exact moves_dock s _ _ rfl (s.dock.setModule_states c _ (FlotillaModule.getNextUpdate_state _ _))
      fun _ => Or.inl (by rw [place]; rfl)
  case h_11 line place =>
    split at moved
    next dock c applied =>
      rw [← Option.some.inj moved]
      obtain ⟨state,modules⟩ := s.dock.applyLine_frame _ _ _ applied
      refine ⟨rfl,rfl,state,fun _ => Or.inl (by rw [place]; rfl),fun c connected => ?_⟩
      exact (modules c connected).imp_right fun named => ⟨line,place,named⟩
    next dock applied =>
      rw [← Option.some.inj moved]
      obtain ⟨state,modules⟩ := s.dock.applyLine_frame _ _ _ applied
      refine ⟨rfl,rfl,state,fun _ => Or.inl (by rw [place]; rfl),fun c connected => ?_⟩
      exact (modules c connected).imp_right fun named => ⟨line,place,named⟩
    next => contradiction
  case h_12 c place =>
    rw [← Option.some.inj moved]
    exact moves_dock s _ _ rfl (fun _ => rfl) fun _ => Or.inl (by rw [place]; rfl)
  case h_13 =>
    rw [← Option.some.inj moved]
    exact moves_dock s _ _ rfl (fun _ => rfl) fun ticking => nomatch ticking
  case h_14 =>
    rw [← Option.some.inj moved]
    refine moves_place s _ fun ticking => ?_
    split at ticking <;> contradiction
  case h_15 next place =>
    rw [← Option.some.inj moved]
    by_cases bound : next < maxChannels
    · simp only [eachChannel_inside next bound]
      refine moves_dock s _ _ ?_ ?_ fun ticking => nomatch ticking
      · split <;> rfl
      · intro c
        split
        · exact s.dock.setModule_states _ _ (FlotillaModule.getNextCommand_state _) c
        · rfl
    · simp only [eachChannel_done next bound]
      exact moves_place s _ fun ticking => nomatch ticking
  case h_16 => contradiction
  -- The other steps move on inside `tick`.
  case h_4 next place =>
    rw [← Option.some.inj moved]
    exact moves_inside s _ (by rw [place]; rfl)
  case h_6 c more place =>
    rw [← Option.some.inj moved]
    exact moves_inside s _ (by rw [place]; rfl)
  case h_7 c place | h_8 c place =>
    rw [← Option.some.inj moved]
    exact moves_inside s _ (by rw [place]; rfl)
  case h_9 more place =>
    rw [← Option.some.inj moved]
    exact moves_inside s _ (by rw [place]; rfl)
  case h_10 arrived place =>
    rw [← Option.some.inj moved]
    exact moves_inside s _ (by rw [place]; rfl)

/-- The steps of the scan thread, with the tests that lead to them. -/
inductive ScanMove (s : Slot) : Slot → Prop
  | unchanged (idle : s.scan = .idle) : ScanMove s s
  | lost (idle : s.scan = .idle) (up : s.dock.state ≠ .disconnected) : ScanMove s {s with scan := .leaving}
  | returned (leaving : s.scan = .leaving) (down : s.dock.state = .disconnected) :
      ScanMove s {s with scan := .idle}
  | torn (leaving : s.scan = .leaving) : ScanMove s {s.setState .disconnected with scan := .sweeping 0}
  | tested (c : Fin maxChannels) (sweeping : s.scan = .sweeping c.val)
      (connected : (s.dock.module c).state = .moduleConnected) : ScanMove s {s with scan := .dropping c}
  | skipped (c : Fin maxChannels) (sweeping : s.scan = .sweeping c.val)
      (disconnected : (s.dock.module c).state = .moduleDisconnected) :
      ScanMove s {s with scan := .sweeping (c.val + 1)}
  | closed (next : Nat) (sweeping : s.scan = .sweeping next) (swept : maxChannels ≤ next) :
      ScanMove s {s with port := .freed,scan := .idle}
  | dropped (c : Fin maxChannels) (dropping : s.scan = .dropping c) :
      ScanMove s {s with dock := s.dock.setModule c (s.dock.module c).disconnect,scan := .losing c}
  | announced (c : Fin maxChannels) (losing : s.scan = .losing c) :
      ScanMove s {s with dock := s.dock.queueModuleEvent c,scan := .sweeping (c.val + 1)}
  | attached (idle : s.scan = .idle) (down : s.dock.state = .disconnected) :
      ScanMove s {s.setState .connecting with scan := .copying}
  | copied (ok : Bool) (copying : s.scan = .copying) :
      ScanMove s {s with port := if ok then .copied else .absent,scan := if ok then .opening else .failing}
  | opened (ok : Bool) (opening : s.scan = .opening) :
      ScanMove s {s with port := if ok then .opened else s.port,scan := if ok then .shaking else .failing}
  | shaken (dock : FlotillaDock) (ok : Bool) (shaking : s.scan = .shaking) (state : dock.state = s.dock.state)
      (module : dock.module = s.dock.module) :
      ScanMove s {s with dock := dock,scan := if ok then .accepting else .failing}
  | failed (failing : s.scan = .failing) : ScanMove s {s.setState .disconnected with scan := .idle}
  | accepted (accepting : s.scan = .accepting) : ScanMove s {s.setState .connected with scan := .enumerating}
  | enumerated (enumerating : s.scan = .enumerating) : ScanMove s {s with scan := .idle}

theorem scanStep_move (s t : Slot) (action : ScanAction) (moved : s.scanStep action = some t) : ScanMove s t := by
  unfold scanStep at moved
  split at moved
  case h_1 idle =>
    rw [← Option.some.inj moved]
    split
    next => exact idle ▸ .unchanged idle
    next up => exact .lost idle fun down => up (Or.inr down)
  case h_2 leaving =>
    split at moved
    next down =>
      rw [← Option.some.inj moved]
      exact .returned leaving down
    next =>
      rw [← Option.some.inj moved]
      exact .torn leaving
  case h_3 next sweeping =>
    rw [← Option.some.inj moved]
    by_cases bound : next < maxChannels
    · simp only [eachChannel_inside next bound]
      split
      next connected => exact .tested ⟨next,bound⟩ sweeping (of_decide_eq_true connected)
      next off =>
        refine .skipped ⟨next,bound⟩ sweeping ?_
        cases state : (s.dock.module ⟨next,bound⟩).state with
        | moduleConnected => exact absurd (decide_eq_true state) off
        | moduleDisconnected => rfl
    · simp only [eachChannel_done next bound]
      exact .closed next sweeping (Nat.le_of_not_lt bound)
  case h_4 c dropping =>
    rw [← Option.some.inj moved]
    exact .dropped c dropping
  case h_5 c losing =>
    split at moved
    · contradiction
    · rw [← Option.some.inj moved]
      exact .announced c losing
  case h_6 idle =>
    split at moved
    next down =>
      rw [← Option.some.inj moved]
      exact .attached idle down
    next =>
      rw [← Option.some.inj moved]
      exact .unchanged idle
  case h_7 ok copying =>
    rw [← Option.some.inj moved]
    exact .copied ok copying
  case h_8 ok opening =>
    rw [← Option.some.inj moved]
    exact .opened ok opening
  case h_9 banner arrived shaking =>
    rw [← Option.some.inj moved]
    obtain ⟨state,module⟩ := s.dock.getVersionInfo_frame banner arrived
    exact .shaken _ _ shaking state module
  case h_10 failing =>
    rw [← Option.some.inj moved]
    exact .failed failing
  case h_11 accepting =>
    rw [← Option.some.inj moved]
    exact .accepted accepting
  case h_12 enumerating =>
    rw [← Option.some.inj moved]
    exact .enumerated enumerating
  case h_13 => contradiction

structure ClientEffect (s t : Slot) : Prop where
  port : t.port = s.port
  scan : t.scan = s.scan
  update : t.update = s.update
  state : t.dock.state = s.dock.state
  module : ∀ c, (t.dock.module c).state = (s.dock.module c).state

theorem clientStep_effect (s t : Slot) (action : ClientAction) (moved : s.clientStep action = some t) :
    ClientEffect s t := by
  cases action with
  | queueCommand command =>
    change (if _ then _ else _) = _ at moved
    split at moved
    · contradiction
    · rw [← Option.some.inj moved]
      exact ⟨rfl,rfl,rfl,rfl,fun _ => rfl⟩
  | queueUpdate c cmd =>
    rw [← Option.some.inj moved]
    exact ⟨rfl,rfl,rfl,rfl,s.dock.setModule_states c _ rfl⟩

end Slot

end FlotillaDaemon
