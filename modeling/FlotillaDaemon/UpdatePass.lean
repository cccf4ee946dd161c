import Mathlib
import FlotillaDaemon.EventStream

/-! What `update_clients` sends for one dock. A pass first sends the events it flushes, then
polls the connected modules and sends what they reported. The other threads run between any
two of its steps; only the update thread connects modules, and it does not during a pass. -/
namespace FlotillaDaemon
open Cpp Retained Replay

inductive Message
  | event (text : Text)
  | value (c : Fin maxChannels) (name data : Text)
  deriving DecidableEq

def Message.text (index : Nat) : Message → Text
  | .event text => text
  | .value c name data =>
    "Dock:".toList ++ decimal index ++ " Data:u ".toList ++ decimal c.val ++ "/".toList ++ name ++ " ".toList ++ data

def Message.event? : Message → Option Text
  | .event text => some text
  | .value _ _ _ => none

/-- The events among the messages. -/
def events (messages : List Message) : List Text := messages.filterMap Message.event?

theorem events_append (first second : List Message) : events (first ++ second) = events first ++ events second :=
  List.filterMap_append

theorem readEvent_value (index : Nat) (c : Fin maxChannels) (name data : Text) :
    readEvent index ((Message.value c name data).text index) = none := by
  have cut (rest : Text) : (("Dock:".toList ++ decimal index ++ " Data:".toList) ++ rest).dropPrefix?
      ("Dock:".toList ++ decimal index ++ " Data:".toList) = some rest :=
    List.dropPrefix?_eq_some_iff.mpr ⟨_,rfl,beq_self_eq_true _⟩
  have letter : " Data:u ".toList = " Data:".toList ++ ['u',' '] := by decide
  obtain ⟨written,_⟩ := decimal_channel c
  unfold readEvent Message.text
  simp only [written,letter,List.append_assoc] at cut ⊢
  rw [cut]
  rfl

theorem value_present (index : Nat) (c : Fin maxChannels) (name data : Text) :
    (Message.value c name data).text index ≠ [] := by
  unfold Message.text
  simp only [List.append_assoc]
  exact List.append_ne_nil_of_left_ne_nil (by decide) _

theorem view_text (index : Nat) (messages : List Message) :
    view index (messages.map (Message.text index)) = view index (events messages) := by
  have parsed : (messages.map (Message.text index)).filterMap (readEvent index) =
      (events messages).filterMap (readEvent index) := by
    rw [List.filterMap_map,events,List.filterMap_filterMap]
    apply List.filterMap_congr
    intro message _
    cases message with
    | event text => rfl
    | value c name data => exact readEvent_value index c name data
  rw [view,parsed,view]

namespace FlotillaDock

/-- What one round of `get_pending_commands` adds. -/
def pendingCommand (dock : FlotillaDock) (c : Fin maxChannels) : List Message :=
  if (dock.module c).state = .moduleConnected ∧ (dock.module c).getNextCommand.2 ≠ [] then
    [.value c (dock.module c).name (dock.module c).getNextCommand.2]
  else []

theorem pendingCommand_text (dock : FlotillaDock) (c : Fin maxChannels) (message : Message)
    (pending : message ∈ dock.pendingCommand c) :
    message.text dock.index = (dock.getNextCommand c).2 ∧
      ∃ name data, message = .value c name data ∧ dock.table c = some name := by
  unfold pendingCommand at pending
  split at pending
  next polled =>
    rw [List.mem_singleton.mp pending]
    refine ⟨?_,_,_,rfl,dock.table_connected c polled.1⟩
    change _ = if (dock.module c).getNextCommand.2 = [] then _ else _
    rw [if_neg polled.2]
    rfl
  next => simp at pending

/-- A module after a poll of its command queue. -/
def polledCommand (m : FlotillaModule) : FlotillaModule :=
  if m.state = .moduleConnected then m.getNextCommand.1 else m

theorem pendingRound_eq (dock : FlotillaDock) (commands : List Text) (c : Fin maxChannels) :
    pendingRound (dock,commands) c = (dock.setModule c (polledCommand (dock.module c)),
      commands ++ (dock.pendingCommand c).map (Message.text dock.index)) := by
  unfold pendingRound pendingCommand polledCommand
  by_cases connected : (dock.module c).state = .moduleConnected
  · rw [if_neg (not_not.mpr connected),if_pos connected]
    have polled : dock.getNextCommand c = (dock.setModule c (dock.module c).getNextCommand.1,
        if (dock.module c).getNextCommand.2 = [] then []
        else (Message.value c (dock.module c).name (dock.module c).getNextCommand.2).text dock.index) := rfl
    rw [polled]
    by_cases quiet : (dock.module c).getNextCommand.2 = []
    · rw [if_pos quiet,if_neg fun due => due.2 quiet,List.map_nil,List.append_nil]
      rfl
    · have present := value_present dock.index c (dock.module c).name (dock.module c).getNextCommand.2
      rw [if_neg quiet,if_pos ⟨connected,quiet⟩]
      dsimp only
      rw [if_neg present,List.map_singleton]
  · rw [if_pos connected,if_neg connected,if_neg (fun polled => connected polled.1),setModule,
      Function.update_eq_self,List.map_nil,List.append_nil]

theorem pendingCommand_same (dock other : FlotillaDock) (c : Fin maxChannels)
    (same : other.module c = dock.module c) : other.pendingCommand c = dock.pendingCommand c := by
  unfold pendingCommand
  rw [same]

theorem channels_pending (channels : List (Fin maxChannels)) (distinct : channels.Nodup) (dock : FlotillaDock)
    (commands : List Text) :
    channels.foldl pendingRound (dock,commands) =
      ({dock with module := fun c => if c ∈ channels then polledCommand (dock.module c) else dock.module c},
        commands ++ (channels.flatMap dock.pendingCommand).map (Message.text dock.index)) := by
  induction channels generalizing dock commands with
  | nil => simp
  | cons x rest ih =>
    obtain ⟨fresh,distinct⟩ := List.nodup_cons.mp distinct
    have others : rest.flatMap (dock.setModule x (polledCommand (dock.module x))).pendingCommand =
        rest.flatMap dock.pendingCommand := by
      apply List.flatMap_congr
      intro c member
      have apart : c ≠ x := fun own => fresh (own ▸ member)
      exact pendingCommand_same _ _ c (Function.update_of_ne apart ..)
    rw [List.foldl_cons,pendingRound_eq,ih distinct,others,List.flatMap_cons,List.map_append,List.append_assoc]
    simp only [setModule]
    congr 2
    funext c
    by_cases own : c = x
    · subst own
      simp [fresh]
    · simp [own]

theorem getPendingCommands_eq (dock : FlotillaDock) :
    dock.getPendingCommands = ({dock with module := fun c => polledCommand (dock.module c)},
      ((List.finRange maxChannels).flatMap dock.pendingCommand).map (Message.text dock.index)) := by
  rw [getPendingCommands,channels_pending _ (List.nodup_finRange _)]
  simp

/-- What `update_clients` sends for a dock, and the dock that it leaves. -/
def passMessages (dock : FlotillaDock) : List Message :=
  dock.eventQueue.map .event ++
    if dock.state = .connected then (List.finRange maxChannels).flatMap dock.pendingCommand else []

def afterPass (dock : FlotillaDock) : FlotillaDock :=
  {dock with
    eventQueue := []
    module := fun c => if dock.state = .connected then polledCommand (dock.module c) else dock.module c}

end FlotillaDock

structure Pass where
  slot : Slot
  stream : Stream
  sending : List Text
  gathered : List Message
  sent : List Message

inductive PassAction
  | slot (action : Action)
  | send
  deriving DecidableEq

namespace Pass

/-- The update thread is busy sending. -/
def Sends (p : Pass) : Prop := p.sending ≠ [] ∨ (p.gathered ≠ [] ∧ p.slot.update = .away)

instance (p : Pass) : Decidable p.Sends := inferInstanceAs (Decidable (_ ∨ _))

def gathers (s : Slot) (action : Action) : List Message :=
  match s.update,action with
  | .serving next,.update .proceed => Slot.eachChannel next s.dock.pendingCommand []
  | _,_ => []

/-- A step of the threads at the slot; the update thread takes none while it is sending. -/
def slotStep (p : Pass) (action : Action) : Option Pass :=
  (p.slot.step action).map fun next =>
    {p with
      slot := next
      stream := Stream.note p.slot action p.stream
      sending := if action = .update .updateClients then p.slot.dock.eventQueue else p.sending
      gathered := p.gathered ++ gathers p.slot action}

def step (p : Pass) : PassAction → Option Pass
  | .slot (.update action) => if p.Sends then none else p.slotStep (.update action)
  | .slot action => p.slotStep action
  | .send =>
    match p.sending,p.gathered with
    | text :: rest,_ => some {p with sending := rest,sent := p.sent ++ [.event text]}
    | [],message :: rest =>
      if p.slot.update = .away then some {p with gathered := rest,sent := p.sent ++ [message]} else none
    | [],[] => none

end Pass

/-- The passes from a state of the slot on, for a client that has received nothing before it. -/
def passes (s : Slot) : System Pass PassAction := ⟨⟨s,⟨s.dock.eventQueue,[]⟩,[],[],[]⟩,Pass.step⟩

namespace Slot

/-- A pass is entered through its flush only, and left through its polls. -/
structure PassPlaces (s t : Slot) (action : UpdateAction) : Prop where
  enters : t.update = .flushed → action = .updateClients
  polls : ∀ next, t.update = .serving next → s.update = .flushed ∨ ∃ earlier, s.update = .serving earlier
  leaves : ∀ next, s.update = .serving next → (∃ later, t.update = .serving later) ∨ t.update = .away
  flushes : action = .updateClients → s.update = .away ∧ t.update = .flushed

theorem updateStep_places (s t : Slot) (action : UpdateAction) (moved : s.updateStep action = some t) :
    PassPlaces s t action := by
  unfold updateStep at moved
  split at moved
  case h_13 place =>
    rw [← Option.some.inj moved]
    exact ⟨fun _ => rfl,by simp,by simp [place],fun _ => ⟨place,rfl⟩⟩
  case h_14 place =>
    rw [← Option.some.inj moved]
    exact ⟨fun flushed => by split at flushed <;> contradiction,fun _ _ => Or.inl place,by simp [place],by simp⟩
  case h_15 next place =>
    rw [← Option.some.inj moved]
    by_cases bound : next < maxChannels
    · simp only [eachChannel_inside next bound]
      exact ⟨by simp,fun _ _ => Or.inr ⟨next,place⟩,fun _ _ => Or.inl ⟨next + 1,rfl⟩,by simp⟩
    · simp only [eachChannel_done next bound]
      exact ⟨by simp,by simp,fun _ _ => Or.inr rfl,by simp⟩
  case h_4 next place =>
    rw [← Option.some.inj moved]
    by_cases bound : next < maxChannels
    · simp only [eachChannel_inside next bound]
      refine ⟨fun flushed => ?_,fun _ served => ?_,by simp [place],by simp⟩
      · split at flushed <;> contradiction
      · split at served <;> contradiction
    · simp only [eachChannel_done next bound]
      exact ⟨by simp,by simp,by simp [place],by simp⟩
  case h_3 place =>
    split at moved <;> rw [← Option.some.inj moved]
    · exact ⟨by simp,by simp,by simp [place],by simp⟩
    · exact ⟨by simp [place],by simp [place],by simp [place],by simp⟩
  case h_5 c place =>
    rcases polled : (s.dock.module c).getNextUpdate [] with ⟨m,fresh,update⟩
    rw [polled] at moved
    rw [← Option.some.inj moved]
    refine ⟨fun flushed => ?_,fun _ served => ?_,by simp [place],by simp⟩
    · split at flushed <;> contradiction
    · split at served <;> contradiction
  case h_11 line place =>
    split at moved
    · rw [← Option.some.inj moved]
      exact ⟨by simp,by simp,by simp [place],by simp⟩
    · rw [← Option.some.inj moved]
      exact ⟨by simp,by simp,by simp [place],by simp⟩
    · contradiction
  case h_1 place | h_2 place | h_6 place | h_9 place =>
    rw [← Option.some.inj moved]
    refine ⟨fun flushed => ?_,fun _ served => ?_,by simp [place],by simp⟩
    · split at flushed <;> contradiction
    · split at served <;> contradiction
  case h_7 place | h_8 place | h_10 place | h_12 place =>
    rw [← Option.some.inj moved]
    exact ⟨by simp,by simp,by simp [place],by simp⟩
  case h_16 => contradiction

/-- Only a line connects a module, and its event is still to be pushed when it has. -/
theorem table_kept (s t : Slot) (before after : Stream) (move : StreamMove s before t after)
    (silent : ∀ c, t.update ≠ .announcing c) (c : Fin maxChannels) (name : Text)
    (shown : t.dock.table c = some name) : s.dock.table c = some name := by
  cases move with
  | quiet _ kept table => exact table ▸ shown
  | changed x _ kept table announces => exact absurd announces (silent x)
  | dropped x _ kept table off =>
    by_cases own : c = x
    · subst own
      rw [off] at shown
      contradiction
    · rw [← table c own]
      exact shown
  | announced | lost | flushed => exact shown

end Slot

namespace Pass

def Passing (p : Pass) : Prop :=
  p.slot.update = .flushed ∨ (∃ next, p.slot.update = .serving next) ∨ (p.slot.update = .away ∧ p.gathered ≠ [])

theorem passing_silent (p : Pass) (passing : p.Passing) (c : Fin maxChannels) : p.slot.update ≠ .announcing c := by
  rcases passing with flushed | ⟨next,serving⟩ | ⟨away,_⟩
  · simp [flushed]
  · simp [serving]
  · simp [away]

/-- The channel is connected under the name in the view after these messages. -/
def Knows (index : Nat) (texts : List Text) (message : Message) : Prop :=
  ∃ c name data, message = .value c name data ∧ view index texts c = some name

structure Consistent (index : Nat) (p : Pass) : Prop where
  own : p.slot.dock.index = index
  mirrored : p.slot.Mirrored p.stream
  flushed : events p.sent ++ p.sending = p.stream.flushed
  sending : p.sending ≠ [] → p.slot.update = .flushed
  polling : p.gathered ≠ [] → (∃ next, p.slot.update = .serving next) ∨ p.slot.update = .away
  inside : p.Passing → ∀ c name, p.slot.dock.table c = some name →
    view index (events p.sent ++ p.sending) c = some name
  gathered : ∀ message ∈ p.gathered, Knows index (events p.sent) message
  known : ∀ before message after, p.sent = before ++ message :: after →
    message.event? = none → Knows index (events before) message

theorem gathers_serving (s : Slot) (action : Action) (message : Message) (gathered : message ∈ gathers s action) :
    action = .update .proceed ∧ ∃ c, s.update = .serving c.val ∧ message ∈ s.dock.pendingCommand c := by
  unfold gathers at gathered
  split at gathered
  next next place =>
    refine ⟨rfl,?_⟩
    by_cases bound : next < maxChannels
    · rw [Slot.eachChannel_inside next bound] at gathered
      exact ⟨⟨next,bound⟩,place,gathered⟩
    · simp [Slot.eachChannel_done next bound] at gathered
  next => simp at gathered

theorem knows_value (index : Nat) (texts : List Text) (message : Message) (knows : Knows index texts message) :
    message.event? = none := by
  obtain ⟨c,name,data,rfl,_⟩ := knows
  rfl

theorem known_concat (index : Nat) (sent : List Message) (last : Message)
    (known : ∀ before message after, sent = before ++ message :: after →
      message.event? = none → Knows index (events before) message)
    (own : last.event? = none → Knows index (events sent) last) :
    ∀ before message after, sent ++ [last] = before ++ message :: after →
      message.event? = none → Knows index (events before) message := by
  intro before message after split value
  rcases List.eq_nil_or_concat after with rfl | ⟨rest,final,rfl⟩
  · obtain ⟨rfl,same⟩ := List.append_inj' split rfl
    rw [← List.singleton_inj.mp same] at value ⊢
    exact own value
  · have shape : sent ++ [last] = (before ++ message :: rest) ++ [final] := by simpa using split
    exact known before message rest (List.append_inj' shape rfl).1 value

theorem sends_consistent (index : Nat) (p q : Pass) (consistent : Consistent index p)
    (moved : p.step .send = some q) : Consistent index q := by
  obtain ⟨own,mirrored,flushed,sending,polling,inside,gathered,known⟩ := consistent
  simp only [step] at moved
  split at moved
  next text rest taken =>
    rw [← Option.some.inj moved]
    have same : events (p.sent ++ [.event text]) ++ rest = events p.sent ++ p.sending := by
      rw [events_append,taken]
      exact List.append_assoc ..
    have place := sending (by rw [taken]; simp)
    refine ⟨own,mirrored,same.trans flushed,fun _ => place,polling,?_,?_,?_⟩
    · intro passing c name shown
      dsimp only
      rw [same]
      exact inside passing c name shown
    · intro message member
      rcases polling (List.ne_nil_of_mem member) with ⟨next,serving⟩ | away
      · rw [place] at serving
        contradiction
      · rw [place] at away
        contradiction
    · exact known_concat index p.sent (.event text) known fun value => by contradiction
  next message rest empty waiting =>
    split at moved
    next away =>
      rw [← Option.some.inj moved]
      have first := gathered message (by rw [waiting]; simp)
      have same : events (p.sent ++ [message]) = events p.sent := by
        rw [events_append]
        simp [events,knows_value index _ message first]
      refine ⟨own,mirrored,by simpa only [same] using flushed,sending,fun _ => Or.inr away,?_,?_,?_⟩
      · intro _ c name shown
        dsimp only
        rw [same]
        exact inside (Or.inr (Or.inr ⟨away,by rw [waiting]; simp⟩)) c name shown
      · intro other member
        dsimp only
        rw [same]
        exact gathered other (by rw [waiting]; exact List.mem_cons_of_mem _ member)
      · exact known_concat index p.sent message known fun _ => first
    next => contradiction
  next => contradiction

theorem gathers_update (s : Slot) (action : Action) (gathered : gathers s action ≠ []) :
    action = .update .proceed ∧ ∃ next, s.update = .serving next := by
  obtain ⟨message,member⟩ := List.exists_mem_of_ne_nil _ gathered
  obtain ⟨proceeded,c,place,_⟩ := gathers_serving s action message member
  exact ⟨proceeded,c.val,place⟩

theorem update_kept (s t : Slot) (action : Action) (other : ∀ a, action ≠ .update a)
    (moved : s.step action = some t) : t.update = s.update := by
  cases action with
  | update action => exact absurd rfl (other action)
  | scan action => cases Slot.scanStep_move s t action moved <;> rfl
  | client action => exact (Slot.clientStep_effect s t action moved).update

/-- Outside the flush a step neither enters a pass nor connects a module in one. -/
theorem passing_before (p : Pass) (next : Slot) (action : Action)
    (free : ∀ a, action = .update a → ¬ p.Sends) (consistent : Consistent index p)
    (stepped : p.slot.step action = some next) (other : action ≠ .update .updateClients)
    (passing : next.update = .flushed ∨ (∃ n, next.update = .serving n) ∨
      (next.update = .away ∧ p.gathered ++ gathers p.slot action ≠ [])) : p.Passing := by
  by_cases updates : ∃ a, action = .update a
  · obtain ⟨a,rfl⟩ := updates
    have places := Slot.updateStep_places p.slot next a stepped
    rcases passing with flushed | ⟨n,serving⟩ | ⟨away,gathered⟩
    · exact absurd (congrArg Action.update (places.enters flushed)) other
    · rcases places.polls n serving with flushed | served
      · exact Or.inl flushed
      · exact Or.inr (Or.inl served)
    · by_cases before : p.gathered = []
      · obtain ⟨_,served⟩ := gathers_update p.slot (.update a) (by simpa [before] using gathered)
        exact Or.inr (Or.inl served)
      · rcases consistent.polling before with served | away
        · exact Or.inr (Or.inl served)
        · exact Or.inr (Or.inr ⟨away,before⟩)
  · have same := update_kept p.slot next action (fun a same => updates ⟨a,same⟩) stepped
    have none : gathers p.slot action = [] := by
      by_contra some
      exact updates ⟨_,(gathers_update p.slot action some).1⟩
    rw [same,none,List.append_nil] at passing
    exact passing

theorem note_flushed (s : Slot) (action : Action) (stream : Stream) (other : action ≠ .update .updateClients) :
    (Stream.note s action stream).flushed = stream.flushed := by
  unfold Stream.note
  split
  · contradiction
  · split <;> rfl
  · split <;> rfl
  · rfl

theorem polling_after (p : Pass) (next : Slot) (action : Action) (free : ∀ a, action = .update a → ¬ p.Sends)
    (consistent : Consistent index p) (stepped : p.slot.step action = some next)
    (waiting : p.gathered ++ gathers p.slot action ≠ []) :
    (∃ n, next.update = .serving n) ∨ next.update = .away := by
  by_cases updates : ∃ a, action = .update a
  · obtain ⟨a,rfl⟩ := updates
    have places := Slot.updateStep_places p.slot next a stepped
    have served : ∃ n, p.slot.update = .serving n := by
      by_cases before : p.gathered = []
      · exact (gathers_update p.slot (.update a) (by simpa [before] using waiting)).2
      · exact (consistent.polling before).resolve_right fun away => free a rfl (Or.inr ⟨before,away⟩)
    obtain ⟨n,serving⟩ := served
    exact places.leaves n serving
  · have same := update_kept p.slot next action (fun a same => updates ⟨a,same⟩) stepped
    have none : gathers p.slot action = [] := by
      by_contra some
      exact updates ⟨_,(gathers_update p.slot action some).1⟩
    rw [none,List.append_nil] at waiting
    rw [same]
    exact consistent.polling waiting

theorem slot_consistent (index : Nat) (p q : Pass) (action : Action) (consistent : Consistent index p)
    (free : ∀ a, action = .update a → ¬ p.Sends) (moved : p.slotStep action = some q) : Consistent index q := by
  obtain ⟨next,stepped,rfl⟩ := Option.map_eq_some_iff.mp moved
  have move := Slot.step_stream p.slot next p.stream action stepped
  have mirrored := Slot.mirrored_move _ _ _ _ consistent.mirrored move
  have own := (Slot.index_move _ _ _ _ move).trans consistent.own
  by_cases flush : action = .update .updateClients
  · subst flush
    obtain ⟨away,entered⟩ := (Slot.updateStep_places p.slot next _ stepped).flushes rfl
    have idle := free _ rfl
    simp only [Sends,not_or,not_not,away,and_true] at idle
    have nothing : gathers p.slot (.update .updateClients) = [] := by
      by_contra some
      simpa using (gathers_update p.slot _ some).1
    have all : events p.sent ++ p.slot.dock.eventQueue = p.stream.pushed := by
      rw [← consistent.mirrored.flushes,← consistent.flushed,idle.1,List.append_nil]
    refine ⟨own,mirrored,?_,fun _ => entered,?_,?_,?_,consistent.known⟩
    · change events p.sent ++ p.slot.dock.eventQueue = p.stream.flushed ++ p.slot.dock.eventQueue
      rw [← consistent.flushed,idle.1,List.append_nil]
    · simp [idle.2,nothing]
    · intro _ c name shown
      change view index (events p.sent ++ p.slot.dock.eventQueue) c = some name
      have before := Slot.table_kept _ _ _ _ move (by simp [entered]) c name shown
      rw [all,← consistent.own]
      rcases consistent.mirrored.mirrors c with announcing | losing | same
      · rw [away] at announcing
        contradiction
      · rw [losing.2] at before
        contradiction
      · exact same.trans before
    · simp [idle.2,nothing]
  · have unflushed : (if action = .update .updateClients then p.slot.dock.eventQueue else p.sending) = p.sending :=
      if_neg flush
    have blocked (a : UpdateAction) (updates : action = .update a) : p.sending = [] := by
      by_contra waiting
      exact free a updates (Or.inl waiting)
    have entered := passing_before p next action free consistent stepped flush
    simp only [unflushed]
    refine ⟨own,mirrored,consistent.flushed.trans (note_flushed _ _ _ flush).symm,?_,?_,?_,?_,consistent.known⟩
    · intro waiting
      have quiet (a : UpdateAction) (updates : action = .update a) : False := waiting (blocked a updates)
      exact (update_kept _ _ _ quiet stepped).trans (consistent.sending waiting)
    · exact polling_after p next action free consistent stepped
    · intro passing c name shown
      have silent := passing_silent _ passing
      exact consistent.inside (entered passing) c name (Slot.table_kept _ _ _ _ move silent c name shown)
    · intro message member
      rcases List.mem_append.mp member with old | new
      · exact consistent.gathered message old
      · obtain ⟨updates,c,serving,pending⟩ := gathers_serving p.slot action message new
        obtain ⟨_,name,data,rfl,shown⟩ := p.slot.dock.pendingCommand_text c message pending
        have known := consistent.inside (Or.inr (Or.inl ⟨c.val,serving⟩)) c name shown
        rw [blocked .proceed updates,List.append_nil] at known
        exact ⟨c,name,data,rfl,known⟩

theorem step_slot (p q : Pass) (action : Action) (moved : p.step (.slot action) = some q) :
    p.slotStep action = some q ∧ ∀ a, action = .update a → ¬ p.Sends := by
  cases action with
  | update action =>
    change (if p.Sends then none else _) = _ at moved
    split at moved
    · contradiction
    next idle => exact ⟨moved,fun _ _ => idle⟩
  | scan action => exact ⟨moved,fun _ updates => by contradiction⟩
  | client action => exact ⟨moved,fun _ updates => by contradiction⟩

theorem step_consistent (index : Nat) (p q : Pass) (action : PassAction) (consistent : Consistent index p)
    (moved : p.step action = some q) : Consistent index q := by
  cases action with
  | send => exact sends_consistent index p q consistent moved
  | slot action =>
    obtain ⟨stepped,free⟩ := step_slot p q action moved
    exact slot_consistent index p q action consistent free stepped

/-- Events that still wait where no module is connected disconnect every channel they name. -/
theorem waiting_events (s : Slot) (stream : Stream) (mirrored : s.Mirrored stream) (away : s.update = .away)
    (empty : ∀ c, (s.dock.module c).state = .moduleDisconnected) (c : Fin maxChannels) :
    view s.dock.index s.dock.eventQueue c = none ∨ (s.scan = .losing c ∧ s.dock.table c = none) := by
  rcases mirrored.mirrors c with announcing | losing | same
  · rw [away] at announcing
    contradiction
  · exact Or.inr losing
  · apply Or.inl
    rw [← mirrored.flushes,s.dock.table_disconnected c (empty c)] at same
    unfold view at same ⊢
    rw [List.filterMap_append,replay_append,replay_apply] at same
    rw [replay_apply]
    cases last : latest ModuleEvent.channel c (s.dock.eventQueue.filterMap (readEvent s.dock.index)) with
    | none => rfl
    | some event =>
      rw [last] at same
      exact same

theorem start_consistent (s : Slot) (stream : Stream) (mirrored : s.Mirrored stream) (away : s.update = .away)
    (empty : ∀ c, (s.dock.module c).state = .moduleDisconnected) :
    Consistent s.dock.index (passes s).initial := by
  refine ⟨rfl,⟨rfl,fun c => ?_⟩,rfl,by simp [passes],by simp [passes],?_,by simp [passes],by simp [passes]⟩
  · rcases waiting_events s stream mirrored away empty c with shown | losing
    · exact Or.inr (Or.inr (shown.trans (s.dock.table_disconnected c (empty c)).symm))
    · exact Or.inr (Or.inl losing)
  · intro _ c name shown
    change s.dock.table c = some name at shown
    rw [s.dock.table_disconnected c (empty c)] at shown
    contradiction

theorem consistent_reached (s : Slot) (stream : Stream) (mirrored : s.Mirrored stream) (away : s.update = .away)
    (empty : ∀ c, (s.dock.module c).state = .moduleDisconnected) (p : Pass)
    (reached : (passes s).Reached (fun _ _ => True) p) : Consistent s.dock.index p :=
  System.reached_invariant (passes s) _ (Consistent s.dock.index) (start_consistent s stream mirrored away empty)
    (fun p action q consistent _ moved => step_consistent s.dock.index p q action consistent moved) p reached

end Pass

/-- Whatever the other threads do between its steps, a pass sends the value of a module only
when the messages sent before leave its channel connected under the name it carries. -/
theorem values_follow_names (index : Nat) (start : Slot × Stream)
    (started : (recorded index).Reached (fun _ _ => True) start) (away : start.1.update = .away)
    (empty : ∀ c, (start.1.dock.module c).state = .moduleDisconnected) (p : Pass)
    (reached : (passes start.1).Reached (fun _ _ => True) p) (before after : List Message)
    (c : Fin maxChannels) (name data : Text) (sent : p.sent = before ++ .value c name data :: after) :
    view index (before.map (Message.text index)) c = some name := by
  obtain ⟨own,mirrored⟩ := Slot.mirrored_reached index start started
  obtain ⟨_,_,_,same,shown⟩ :=
    (Pass.consistent_reached start.1 start.2 mirrored away empty p reached).known before _ after sent rfl
  obtain ⟨rfl,rfl,_⟩ := Message.value.inj same
  rw [view_text,← own]
  exact shown

section Runs

/-- A dock is attached, and a dial is found and reports. -/
def dialReports : List Action :=
  attaching ++ listening ++ reading "c 1/dial\n".toList ++ processing ++ reading "u 1/dial 42\n".toList ++
    [.update .proceed,.update (.waiting false),.update .updateClients]

/-- The pass then sends the event, polls the modules and sends the value. -/
def dialSent : List PassAction :=
  dialReports.map PassAction.slot ++ [.send] ++ List.replicate 10 (.slot (.update .proceed)) ++ [.send]

def dialPass : Pass := ((passes (.new 0)).run (passes (.new 0)).initial dialSent).get (by decide +kernel)

theorem dialPass_reached : (passes (.new 0)).Reached (fun _ _ => True) dialPass := by
  apply System.run_reached _ dialPass dialSent
  rw [dialPass,Option.some_get]

end Runs

theorem values_follow_dial : view 0 ["Dock:0 Data:c 0/dial".toList] 0 = some "dial".toList :=
  values_follow_names 0 (.new 0,⟨[],[]⟩) .start rfl (fun _ => rfl) dialPass dialPass_reached
    [.event "Dock:0 Data:c 0/dial".toList] [] 0 "dial".toList "42".toList (by decide +kernel)

end FlotillaDaemon
