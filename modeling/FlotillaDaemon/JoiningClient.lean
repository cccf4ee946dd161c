import FlotillaDaemon.UpdatePass

/-! A client joins while the update thread works. `ready` turns the client on before the
snapshot is taken, so from then on two threads send to it: the snapshot loop reads, formats
and sends one module after the other, and a pass sends the events it has flushed. -/
namespace FlotillaDaemon
open Cpp Retained Replay

/-- Where the websocket thread stands in `init_client`, at this dock. -/
inductive JoinPlace
  | absent
  | greeting
  | testing (next : Nat)
  | formatting (c : Fin maxChannels)
  | sending (event : ModuleEvent)
  | joined
  deriving DecidableEq

/-- The channels that the snapshot has still to treat. -/
def JoinPlace.ahead (place : JoinPlace) (c : Fin maxChannels) : Bool :=
  match place with
  | .absent | .greeting => true
  | .testing next => next ≤ c.val
  | .formatting x => x ≤ c
  | .sending event => event.channel ≤ c
  | .joined => false

/-- A client that is subscribed to the dock, and the messages it was sent. The greetings,
which carry no event, are left out. -/
structure Join where
  pass : Pass
  place : JoinPlace
  received : List Message

inductive JoinAction
  | pass (action : PassAction)
  | earlier (message : Message)
  | ready
  | proceed
  deriving DecidableEq

namespace Join

def dock (j : Join) : FlotillaDock := j.pass.slot.dock

def proceed (j : Join) : Option Join :=
  match j.place with
  | .greeting => some {j with place := if j.dock.state = .connected then .testing 0 else .joined}
  | .testing next =>
    let inside (c : Fin maxChannels) : JoinPlace :=
      if j.pass.slot.moduleConnected c then .formatting c else .testing (next + 1)
    some {j with place := Slot.eachChannel next inside .joined}
  | .formatting c => some {j with place := .sending (j.dock.event c)}
  | .sending event =>
    some {j with
      received := j.received ++ [.event (event.text j.dock.index)]
      place := .testing (event.channel.val + 1)}
  | .absent | .joined => none

/-- The `ready` is the last that the client sends; before it, the client may have been sent
anything. -/
def step (j : Join) : JoinAction → Option Join
  | .pass action => (j.pass.step action).map fun next =>
    {j with
      pass := next
      received := if j.place = .absent then j.received else j.received ++ next.sent.drop j.pass.sent.length}
  | .earlier message => if j.place = .absent then some {j with received := j.received ++ [message]} else none
  | .ready => if j.place = .absent then some {j with place := .greeting} else none
  | .proceed => j.proceed

def view (j : Join) (c : Fin maxChannels) : Option Text := FlotillaDaemon.view j.dock.index (events j.received) c

/-- The events that are pushed and not yet sent. -/
def onTheWay (j : Join) : List ModuleEvent :=
  (j.pass.sending ++ j.dock.eventQueue).filterMap (readEvent j.dock.index)

def Waits (j : Join) (c : Fin maxChannels) : Prop :=
  j.pass.slot.update = .announcing c ∨ ∃ event ∈ j.onTheWay, event.channel = c

instance (j : Join) (c : Fin maxChannels) : Decidable (j.Waits c) := inferInstanceAs (Decidable (_ ∨ _))

/-- The dock is not lost once the client is ready. -/
def Steady (j : Join) : JoinAction → Prop
  | .pass (.slot action) => j.pass.slot.Covered action ∧ (action = .scan .missing → j.place = .absent)
  | .ready => j.pass.slot.scan.disconnects = false
  | _ => True

/-- When the snapshot sends an event, the module is still as it says, or a later event of the
channel is on its way; and a client that is ready again shows no module that is gone. -/
def Fresh (j : Join) (action : JoinAction) : Prop :=
  match j.place,action with
  | .sending event,.proceed => event.shown = j.dock.table event.channel ∨ j.Waits event.channel
  | .absent,.ready => ∀ c, j.dock.table c = none → j.view c = none ∨ j.Waits c
  | _,_ => True

instance (j : Join) (action : JoinAction) : Decidable (j.Steady action) := by
  unfold Steady
  split <;> infer_instance

instance (j : Join) (action : JoinAction) : Decidable (j.Fresh action) := by
  unfold Fresh
  split <;> infer_instance

end Join

def joins (index : Nat) : System Join JoinAction := ⟨⟨(passes (.new index)).initial,.absent,[]⟩,Join.step⟩

namespace Slot

theorem scanStep_attached (s t : Slot) (action : ScanAction) (moved : s.scanStep action = some t)
    (other : action ≠ .missing) (attached : s.scan.disconnects = false) : t.scan.disconnects = false := by
  unfold scanStep at moved
  split at moved
  case h_1 => contradiction
  case h_2 place | h_3 place | h_4 place | h_5 place =>
    rw [place] at attached
    contradiction
  case h_13 => contradiction
  case h_6 place =>
    split at moved <;> rw [← Option.some.inj moved]
    · rfl
    · exact attached
  case h_7 ok _ | h_8 ok _ =>
    rw [← Option.some.inj moved]
    cases ok <;> rfl
  case h_9 banner arrived place =>
    rw [← Option.some.inj moved]
    dsimp only
    split <;> rfl
  case h_10 | h_11 | h_12 =>
    rw [← Option.some.inj moved]
    rfl

theorem step_attached (s t : Slot) (action : Action) (moved : s.step action = some t)
    (other : action ≠ .scan .missing) (attached : s.scan.disconnects = false) : t.scan.disconnects = false := by
  cases action with
  | update action => rw [(updateStep_effect s t action moved).scan,attached]
  | scan action => exact scanStep_attached s t action moved (fun same => other (congrArg Action.scan same)) attached
  | client action => rw [(clientStep_effect s t action moved).scan,attached]

theorem flush_step (s t : Slot) (moved : s.step (.update .updateClients) = some t) :
    s.update = .away ∧ t = {s with dock := {s.dock with eventQueue := []},update := .flushed} := by
  change s.updateStep .updateClients = some t at moved
  unfold updateStep at moved
  split at moved
  all_goals first | contradiction | skip
  case h_13 place same => exact ⟨place,(Option.some.inj moved).symm⟩

/-- Away from a flush, a step that changes a channel leaves its event to be pushed or pushes it. -/
theorem changes_wait (s t : Slot) (before after : Stream) (move : StreamMove s before t after)
    (kept : after.flushed = before.flushed) (attached : s.scan.disconnects = false)
    (still : t.scan.disconnects = false) (c : Fin maxChannels) :
    (t.update = .announcing c ∨ t.dock.moduleEvent c ∈ t.dock.eventQueue) ∨
      (t.dock.table c = s.dock.table c ∧ s.update ≠ .announcing c ∧ t.dock.eventQueue ⊇ s.dock.eventQueue) := by
  cases move with
  | quiet _ same table announcing losing =>
    by_cases announces : t.update = .announcing c
    · exact Or.inl (Or.inl announces)
    · refine Or.inr ⟨by rw [table],fun earlier => announces ((announcing c).mpr earlier),?_⟩
      rw [same.queue]
      exact List.Subset.refl _
  | changed x _ same table announces silent scan =>
    by_cases own : c = x
    · exact Or.inl (Or.inl (own ▸ announces))
    · refine Or.inr ⟨table c own,silent c,?_⟩
      rw [same.queue]
      exact List.Subset.refl _
  | dropped x _ same table off update loses silent =>
    rw [loses] at still
    contradiction
  | announced x announces =>
    by_cases own : c = x
    · subst own
      exact Or.inl (Or.inr (List.mem_append_right _ (List.mem_singleton.mpr rfl)))
    · refine Or.inr ⟨rfl,fun same => own ?_,List.subset_append_left _ _⟩
      rw [announces] at same
      exact (UpdatePlace.announcing.inj same).symm
  | lost x loses =>
    rw [loses] at attached
    contradiction
  | flushed away =>
    have empty : s.dock.eventQueue = [] := List.append_right_eq_self.mp kept
    refine Or.inr ⟨rfl,by simp [away],?_⟩
    rw [empty]
    exact List.nil_subset _

end Slot

namespace Join

/-- The client shows the channel as it is, or it will be told of it. -/
def InView (j : Join) (c : Fin maxChannels) : Prop :=
  j.Waits c ∨ j.view c = j.dock.table c ∨ (j.place.ahead c = true ∧ j.dock.table c ≠ none)

structure Served (index : Nat) (j : Join) : Prop where
  consistent : Pass.Consistent index j.pass
  agrees : j.pass.slot.Agrees
  swept : j.pass.slot.Swept
  attached : j.place ≠ .absent → j.pass.slot.scan.disconnects = false
  shown : j.place ≠ .absent → ∀ c, j.InView c

theorem waits_queued (j : Join) (c : Fin maxChannels) (queued : j.dock.moduleEvent c ∈ j.dock.eventQueue) :
    j.Waits c := by
  refine Or.inr ⟨j.dock.event c,List.mem_filterMap.mpr ⟨_,List.mem_append_right _ queued,?_⟩,rfl⟩
  rw [j.dock.moduleEvent_eq c]
  exact readEvent_text _ _

/-- The events that are on the way are the last that were pushed. -/
theorem pushed_split (index : Nat) (p : Pass) (consistent : Pass.Consistent index p) :
    p.stream.pushed = events p.sent ++ (p.sending ++ p.slot.dock.eventQueue) := by
  rw [← List.append_assoc,consistent.flushed,consistent.mirrored.flushes]

/-- The last event of a channel that is on its way shows the channel as it is. -/
theorem last_shows (index : Nat) (p : Pass) (consistent : Pass.Consistent index p)
    (attached : p.slot.scan.disconnects = false) (text : Text) (event : ModuleEvent) (rest : List Text)
    (sending : p.sending = text :: rest) (read : readEvent index text = some event)
    (last : ∀ later ∈ (rest ++ p.slot.dock.eventQueue).filterMap (readEvent index), later.channel ≠ event.channel) :
    p.slot.update = .announcing event.channel ∨ event.shown = p.slot.dock.table event.channel := by
  rcases consistent.mirrored.mirrors event.channel with announcing | losing | same
  · exact Or.inl announcing
  · rw [losing.1] at attached
    contradiction
  · apply Or.inr
    rw [consistent.own,pushed_split index p consistent,sending] at same
    unfold FlotillaDaemon.view at same
    rw [List.cons_append,List.filterMap_append,List.filterMap_cons_some read,replay_append,
      ← List.singleton_append,replay_append,
      replay_untouched ModuleEvent.channel ModuleEvent.shown event.channel _ _ last] at same
    rw [← same,replay_singleton,Function.update_self]

theorem view_heard (index : Nat) (texts : List Text) (text : Text) (c : Fin maxChannels) :
    FlotillaDaemon.view index (texts ++ [text]) c =
      match readEvent index text with
      | some event => if event.channel = c then event.shown else FlotillaDaemon.view index texts c
      | none => FlotillaDaemon.view index texts c := by
  unfold FlotillaDaemon.view
  rw [List.filterMap_append]
  cases read : readEvent index text with
  | none =>
    rw [List.filterMap_cons_none read,List.filterMap_nil,List.append_nil]
  | some event =>
    rw [List.filterMap_cons_some read,List.filterMap_nil,replay_append,replay_singleton,Function.update_apply]
    simp only [eq_comm]

theorem inView_kept (j k : Join) (c : Fin maxChannels) (place : k.place = j.place) (view : k.view c = j.view c)
    (table : k.dock.table c = j.dock.table c) (waits : j.Waits c → k.Waits c) (shown : j.InView c) : k.InView c := by
  unfold InView at shown ⊢
  rw [view,table,place]
  exact shown.imp_left waits

/-- A step of the threads at the dock, with the client ready. -/
theorem slot_shown (index : Nat) (j : Join) (action : Action) (q : Pass) (served : Served index j)
    (moved : j.pass.slotStep action = some q) (free : ∀ a, action = .update a → ¬ j.pass.Sends)
    (kept : q.slot.scan.disconnects = false) (joining : j.place ≠ .absent) (c : Fin maxChannels) :
    InView {j with pass := q} c := by
  obtain ⟨next,stepped,rfl⟩ := Option.map_eq_some_iff.mp moved
  have shown := served.shown joining c
  by_cases flush : action = .update .updateClients
  · subst flush
    obtain ⟨away,rfl⟩ := Slot.flush_step j.pass.slot next stepped
    have idle := free _ rfl
    simp only [Pass.Sends,not_or,not_not,away,and_true] at idle
    refine inView_kept j _ c rfl rfl rfl (fun waits => ?_) shown
    rcases waits with announcing | ⟨event,pushed,own⟩
    · rw [away] at announcing
      contradiction
    · refine Or.inr ⟨event,?_,own⟩
      rw [onTheWay,idle.1,List.nil_append] at pushed
      change event ∈ (j.dock.eventQueue ++ []).filterMap (readEvent j.dock.index)
      rw [List.append_nil]
      exact pushed
  · have move := Slot.step_stream j.pass.slot next j.pass.stream action stepped
    have own : next.dock.index = j.dock.index := Slot.index_move _ _ _ _ move
    have changes := Slot.changes_wait _ _ _ _ move (Pass.note_flushed _ _ _ flush) (served.attached joining) kept c
    rcases changes with (announcing | queued) | ⟨table,silent,queue⟩
    · exact Or.inl (Or.inl announcing)
    · exact Or.inl (waits_queued _ c queued)
    · refine inView_kept j _ c rfl (by simp only [view,dock] at own ⊢; rw [own]) table (fun waits => ?_) shown
      obtain ⟨event,pushed,same⟩ := waits.resolve_left silent
      obtain ⟨text,member,read⟩ := List.mem_filterMap.mp pushed
      refine Or.inr ⟨event,List.mem_filterMap.mpr ⟨text,?_,?_⟩,same⟩
      · change text ∈ (if _ then _ else j.pass.sending) ++ next.dock.eventQueue
        rw [if_neg flush]
        exact (List.mem_append.mp member).elim (List.mem_append_left _) fun late =>
          List.mem_append_right _ (queue late)
      · change readEvent next.dock.index text = some event
        rw [own]
        exact read

theorem events_heard (messages : List Message) (text : Text) :
    events (messages ++ [.event text]) = events messages ++ [text] := events_append _ _

theorem events_unheard (messages : List Message) (message : Message) (value : message.event? = none) :
    events (messages ++ [message]) = events messages := by
  rw [events_append]
  simp [events,value]

theorem event_shown (index : Nat) (j : Join) (text : Text) (rest : List Text) (q : Pass) (served : Served index j)
    (taken : j.pass.sending = text :: rest) (sending : q.sending = rest) (slot : q.slot = j.pass.slot)
    (joining : j.place ≠ .absent) (c : Fin maxChannels) :
    InView {j with pass := q,received := j.received ++ [.event text]} c := by
  have own : j.dock.index = index := served.consistent.own
  have coming : onTheWay {j with pass := q,received := j.received ++ [.event text]} =
      (rest ++ j.dock.eventQueue).filterMap (readEvent index) := by
    simp only [onTheWay,dock,sending,slot]
    rw [← own,dock]
  have heard : view {j with pass := q,received := j.received ++ [.event text]} c =
      FlotillaDaemon.view index (events j.received ++ [text]) c := by
    simp only [view,dock,slot,events_heard]
    rw [← own,dock]
  have before : j.view c = FlotillaDaemon.view index (events j.received) c := by rw [view,own]
  have shown := served.shown joining c
  have announces (waiting : j.pass.slot.update = .announcing c) : q.slot.update = .announcing c := slot ▸ waiting
  have table : dock {j with pass := q,received := j.received ++ [.event text]} = j.dock := congrArg Slot.dock slot
  rw [view_heard] at heard
  cases read : readEvent index text with
  | none =>
    rw [read] at heard
    refine inView_kept j _ c rfl (heard.trans before.symm) (by rw [table]) (Or.imp announces ?_) shown
    rw [coming,onTheWay,own,taken,List.cons_append,List.filterMap_cons_none read]
    exact id
  | some event =>
    rw [read] at heard
    have first : j.onTheWay = event :: (rest ++ j.dock.eventQueue).filterMap (readEvent index) := by
      rw [onTheWay,own,taken,List.cons_append,List.filterMap_cons_some read]
    by_cases later : ∃ late ∈ (rest ++ j.dock.eventQueue).filterMap (readEvent index),late.channel = c
    · exact Or.inl (Or.inr (by rw [coming]; exact later))
    · by_cases same : event.channel = c
      · subst same
        have last := last_shows index j.pass served.consistent (served.attached joining) text event rest taken read
          fun late member same => later ⟨late,member,same⟩
        rcases last with announcing | current
        · exact Or.inl (Or.inl (announces announcing))
        · refine Or.inr (Or.inl ?_)
          rw [heard,table]
          simp only [if_true]
          exact current
      · simp only [if_neg same] at heard
        refine inView_kept j _ c rfl (heard.trans before.symm) (by rw [table]) (Or.imp announces ?_) shown
        rw [first,coming]
        rintro ⟨late,member,channel⟩
        rcases List.mem_cons.mp member with rfl | member
        · exact absurd channel same
        · exact ⟨late,member,channel⟩

theorem send_shown (index : Nat) (j : Join) (q : Pass) (served : Served index j) (moved : j.pass.step .send = some q)
    (joining : j.place ≠ .absent) (c : Fin maxChannels) :
    InView {j with pass := q,received := j.received ++ q.sent.drop j.pass.sent.length} c := by
  simp only [Pass.step] at moved
  split at moved
  next text rest taken =>
    rw [← Option.some.inj moved]
    simp only [List.drop_left]
    exact event_shown index j text rest {j.pass with sending := rest,sent := j.pass.sent ++ [.event text]}
      served taken rfl rfl joining c
  next message rest empty waiting =>
    split at moved
    next away =>
      rw [← Option.some.inj moved]
      have value := Pass.knows_value _ _ _ (served.consistent.gathered message (by rw [waiting]; simp))
      refine inView_kept j _ c rfl ?_ rfl id (served.shown joining c)
      simp only [List.drop_left,view,events_unheard _ _ value,dock]
    next => contradiction
  next => contradiction

theorem placed_shown (j : Join) (place : JoinPlace) (c : Fin maxChannels)
    (ahead : j.place.ahead c = true → j.dock.table c ≠ none → place.ahead c = true) (shown : j.InView c) :
    InView {j with place := place} c := by
  rcases shown with waits | same | ⟨left,present⟩
  · exact Or.inl waits
  · exact Or.inr (Or.inl same)
  · exact Or.inr (Or.inr ⟨ahead left present,present⟩)

theorem pending_attached (place : ScanPlace) (attached : place.disconnects = false) (c : Fin maxChannels) :
    place.pending c = false := by
  cases place <;> first | rfl | contradiction

theorem proceed_shown (index : Nat) (j q : Join) (served : Served index j) (moved : j.proceed = some q)
    (fresh : j.Fresh .proceed) (joining : j.place ≠ .absent) (c : Fin maxChannels) : q.InView c := by
  have shown := served.shown joining c
  unfold proceed at moved
  split at moved
  next place =>
    rw [← Option.some.inj moved]
    refine placed_shown j _ c (fun _ present => ?_) shown
    by_cases up : j.dock.state = .connected
    · simp [up,JoinPlace.ahead]
    · have off := served.swept up c (pending_attached _ (served.attached joining) c)
      exact absurd (j.dock.table_disconnected c off) present
  next next place =>
    rw [← Option.some.inj moved]
    refine placed_shown j _ c (fun ahead present => ?_) shown
    rw [place] at ahead
    have reached : next ≤ c.val := of_decide_eq_true ahead
    have bound : next < maxChannels := Nat.lt_of_le_of_lt reached c.isLt
    rw [Slot.eachChannel_inside next bound]
    split
    next connected => exact decide_eq_true reached
    next off =>
      refine decide_eq_true (Nat.lt_of_le_of_ne reached fun same => ?_)
      have here : (⟨next,bound⟩ : Fin maxChannels) = c := Fin.ext same
      rw [here] at off
      exact present (j.dock.table_disconnected c (Slot.disconnected_of_not _ fun on => off (decide_eq_true on)))
  next x place =>
    rw [← Option.some.inj moved]
    refine placed_shown j _ c (fun ahead _ => ?_) shown
    rw [place] at ahead
    exact ahead
  next event place =>
    rw [← Option.some.inj moved]
    simp only [Fresh,place] at fresh
    have heard : FlotillaDaemon.view j.dock.index (events (j.received ++ [.event (event.text j.dock.index)])) c =
        if event.channel = c then event.shown else j.view c := by
      rw [events_heard,view_heard,readEvent_text,view]
    by_cases own : event.channel = c
    · subst own
      rcases fresh with current | waits
      · exact Or.inr (Or.inl (heard.trans ((if_pos rfl).trans current)))
      · exact Or.inl waits
    · rw [if_neg own] at heard
      rcases shown with waits | same | ⟨ahead,present⟩
      · exact Or.inl waits
      · exact Or.inr (Or.inl (heard.trans same))
      · refine Or.inr (Or.inr ⟨?_,present⟩)
        rw [place] at ahead
        have reached : event.channel ≤ c := of_decide_eq_true ahead
        exact decide_eq_true (Nat.lt_of_le_of_ne reached fun same => own (Fin.ext same))
  next => contradiction
  next => contradiction

theorem send_slot (p q : Pass) (moved : p.step .send = some q) : q.slot = p.slot := by
  simp only [Pass.step] at moved
  split at moved
  · rw [← Option.some.inj moved]
  · split at moved
    · rw [← Option.some.inj moved]
    · contradiction
  · contradiction

theorem proceed_pass (j k : Join) (moved : j.proceed = some k) : k.pass = j.pass := by
  unfold proceed at moved
  split at moved
  case h_5 | h_6 => contradiction
  all_goals rw [← Option.some.inj moved]

theorem ready_shown (j : Join) (fresh : j.Fresh .ready) (absent : j.place = .absent) (c : Fin maxChannels) :
    InView {j with place := .greeting} c := by
  simp only [Fresh,absent] at fresh
  by_cases empty : j.dock.table c = none
  · rcases fresh c empty with shown | waits
    · exact Or.inr (Or.inl (shown.trans empty.symm))
    · exact Or.inl waits
  · exact Or.inr (Or.inr ⟨rfl,empty⟩)

theorem step_served (index : Nat) (j k : Join) (action : JoinAction) (served : Served index j)
    (steady : j.Steady action) (fresh : j.Fresh action) (moved : j.step action = some k) : Served index k := by
  cases action with
  | earlier message =>
    change (if _ then _ else _) = _ at moved
    split at moved
    next absent =>
      rw [← Option.some.inj moved]
      exact ⟨served.consistent,served.agrees,served.swept,fun joining => absurd absent joining,
        fun joining => absurd absent joining⟩
    next => contradiction
  | ready =>
    change (if _ then _ else _) = _ at moved
    split at moved
    next absent =>
      rw [← Option.some.inj moved]
      exact ⟨served.consistent,served.agrees,served.swept,fun _ => steady,
        fun _ c => ready_shown j fresh absent c⟩
    next => contradiction
  | proceed =>
    have joining : j.place ≠ .absent := by
      intro absent
      simp [step,proceed,absent] at moved
    have pass := proceed_pass j k moved
    exact ⟨pass ▸ served.consistent,pass ▸ served.agrees,pass ▸ served.swept,
      fun _ => pass ▸ served.attached joining,fun _ c => proceed_shown index j k served moved fresh joining c⟩
  | pass action =>
    obtain ⟨next,stepped,rfl⟩ := Option.map_eq_some_iff.mp moved
    have consistent := Pass.step_consistent index j.pass next action served.consistent stepped
    cases action with
    | send =>
      have slot := send_slot j.pass next stepped
      refine ⟨consistent,slot ▸ served.agrees,slot ▸ served.swept,fun joining => slot ▸ served.attached joining,?_⟩
      intro joining c
      simp only [if_neg joining]
      exact send_shown index j next served stepped joining c
    | slot action =>
      obtain ⟨moved,free⟩ := Pass.step_slot j.pass next action stepped
      obtain ⟨slot,taken,rfl⟩ := Option.map_eq_some_iff.mp moved
      have attached (joining : j.place ≠ .absent) : slot.scan.disconnects = false :=
        Slot.step_attached _ _ action taken (fun missing => joining (steady.2 missing)) (served.attached joining)
      refine ⟨consistent,Slot.agrees_step _ _ action served.agrees taken,
        Slot.swept_step _ _ action served.agrees served.swept steady.1 taken,attached,?_⟩
      intro joining c
      simp only [if_neg joining,List.drop_length,List.append_nil]
      exact slot_shown index j action _ served moved free (attached joining) joining c

theorem served_reached (index : Nat) (j : Join)
    (reached : (joins index).Reached (fun j action => j.Steady action ∧ j.Fresh action) j) : Served index j := by
  refine System.reached_invariant (joins index) _ (Served index) ?_ ?_ j reached
  · refine ⟨Pass.start_consistent (.new index) ⟨[],[]⟩ ⟨rfl,fun _ => Or.inr (Or.inr rfl)⟩ rfl (fun _ => rfl),
      Or.inl rfl,fun _ _ _ => rfl,fun joining => absurd rfl joining,fun joining => absurd rfl joining⟩
  · exact fun j action k served meets moved => step_served index j k action served meets.1 meets.2 moved

/-- Every event is sent, and no line is being processed. -/
def Settled (j : Join) : Prop :=
  j.dock.eventQueue = [] ∧ j.pass.sending = [] ∧ ∀ c, j.pass.slot.update ≠ .announcing c

instance (j : Join) : Decidable j.Settled := inferInstanceAs (Decidable (_ ∧ _))

end Join

/-- A client that has joined shows the module table as soon as every event is sent, in every
run in which no event of its snapshot is overtaken. -/
theorem joined_mirrors_table (index : Nat) (j : Join)
    (reached : (joins index).Reached (fun j action => j.Steady action ∧ j.Fresh action) j)
    (joined : j.place = .joined) (settled : j.Settled) :
    view index (j.received.map (Message.text index)) = j.dock.table := by
  have served := Join.served_reached index j reached
  funext c
  rw [view_text]
  rcases served.shown (by rw [joined]; decide) c with waits | same | ⟨ahead,_⟩
  · rcases waits with announcing | ⟨event,pushed,_⟩
    · exact absurd announcing (settled.2.2 c)
    · rw [Join.onTheWay,settled.1,settled.2.1] at pushed
      contradiction
  · rw [← same,Join.view,← served.consistent.own]
    rfl
  · rw [joined] at ahead
    contradiction

section Runs

def atDock (actions : List Action) : List JoinAction := actions.map fun action => .pass (.slot action)

def passing : List JoinAction :=
  atDock [.update (.waiting false),.update .updateClients] ++ [.pass .send] ++
    atDock (List.replicate 10 (.update .proceed))

/-- A dial is known to all when the client gets ready; its event is formatted after three steps. -/
def greeted : List JoinAction :=
  atDock (attaching ++ listening ++ reading "c 1/dial\n".toList ++ processing) ++ passing ++
    .ready :: List.replicate 3 .proceed

def dialJoined : Join :=
  ((joins 0).run (joins 0).initial (greeted ++ List.replicate 9 .proceed)).get (by decide +kernel)

/-- The dial is lost, and its event sent, before the snapshot sends the event it has formatted. -/
def overtaking : List JoinAction :=
  greeted ++ atDock (listening ++ [.update .proceed] ++ reading "d 1/dial\n".toList ++ processing) ++ passing ++
    List.replicate 9 .proceed

def overtaken : Join := ((joins 0).run (joins 0).initial overtaking).get (by decide +kernel)

end Runs

theorem joined_mirrors_dial : view 0 (dialJoined.received.map (Message.text 0)) = dialJoined.dock.table := by
  have meets : (joins 0).Meets (fun j action => j.Steady action ∧ j.Fresh action) (joins 0).initial
      (greeted ++ List.replicate 9 .proceed) := by decide +kernel
  have reached := System.reached_run (joins 0) _ _ dialJoined _ .start meets (Option.some_get _).symm
  exact joined_mirrors_table 0 dialJoined reached (by decide +kernel) (by decide +kernel)

theorem joined_shows_lost :
    ¬ ∀ (index : Nat) (j : Join), (joins index).Reached (fun j action => j.Steady action) j → j.place = .joined →
      j.Settled → view index (j.received.map (Message.text index)) = j.dock.table := by
  intro mirrors
  have meets : (joins 0).Meets (fun j action => j.Steady action) (joins 0).initial overtaking := by decide +kernel
  have reached := System.reached_run (joins 0) _ _ overtaken _ .start meets (Option.some_get _).symm
  exact absurd (congrFun (mirrors 0 overtaken reached (by decide +kernel) (by decide +kernel)) 0)
    (by decide +kernel)

end FlotillaDaemon
