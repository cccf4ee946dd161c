import FlotillaDaemon.Announcements
import FlotillaDaemon.Delivery

/-! What a client that listens to a dock is told. It is greeted with the modules that the dock has,
and each later pass sends it the events that were queued, each once and in order. -/
namespace FlotillaDaemon
open Cpp Retained Replay

section Reading

theorem readEvent_plain (index : Nat) (text : Text) (plain : text.head? ≠ some 'D') : readEvent index text = none := by
  unfold readEvent
  have uncut : text.dropPrefix? ("Dock:".toList ++ decimal index ++ " Data:".toList) = none := by
    apply Option.eq_none_iff_forall_ne_some.mpr
    intro rest cut
    obtain ⟨start,rfl,same⟩ := List.dropPrefix?_eq_some_iff.mp cut
    rw [beq_iff_eq.mp same] at plain
    exact plain rfl
  rw [uncut]

theorem readEvent_other (d e : Fin maxDocks) (apart : e ≠ d) (rest : Text) :
    readEvent d.val ("Dock:".toList ++ decimal e.val ++ " Data:".toList ++ rest) = none := by
  have digits : ∀ i j : Fin 8, digitOf i = digitOf j → i = j := by decide
  unfold readEvent
  have uncut : ("Dock:".toList ++ decimal e.val ++ " Data:".toList ++ rest).dropPrefix?
      ("Dock:".toList ++ decimal d.val ++ " Data:".toList) = none := by
    apply Option.eq_none_iff_forall_ne_some.mpr
    intro other cut
    obtain ⟨start,split,same⟩ := List.dropPrefix?_eq_some_iff.mp cut
    rw [beq_iff_eq.mp same,(decimal_channel e).1,(decimal_channel d).1] at split
    simp only [List.append_assoc,List.append_cancel_left_eq,List.cons_append,List.cons.injEq] at split
    exact apart (digits e d split.1)
  rw [uncut]

theorem event_headed (index : Nat) (event : ModuleEvent) :
    ∃ rest, event.text index = "Dock:".toList ++ decimal index ++ " Data:".toList ++ rest := by
  refine ⟨(if event.connected then "c".toList else "d".toList) ++ " ".toList ++ decimal event.channel.val ++ "/".toList ++
    event.name,?_⟩
  unfold ModuleEvent.text
  simp only [List.append_assoc]

theorem value_headed (index : Nat) (c : Fin maxChannels) (name data : Text) :
    ∃ rest, (Message.value c name data).text index = "Dock:".toList ++ decimal index ++ " Data:".toList ++ rest := by
  have letter : " Data:u ".toList = " Data:".toList ++ ['u',' '] := by decide
  refine ⟨['u',' '] ++ decimal c.val ++ "/".toList ++ name ++ " ".toList ++ data,?_⟩
  unfold Message.text
  rw [letter]
  simp only [List.append_assoc]

theorem readEvent_elsewhere (d e : Fin maxDocks) (apart : e ≠ d) (event : ModuleEvent) :
    readEvent d.val (event.text e.val) = none := by
  obtain ⟨rest,same⟩ := event_headed e.val event
  rw [same]
  exact readEvent_other d e apart rest

theorem readEvent_value_elsewhere (d e : Fin maxDocks) (apart : e ≠ d) (c : Fin maxChannels) (name data : Text) :
    readEvent d.val ((Message.value c name data).text e.val) = none := by
  obtain ⟨rest,same⟩ := value_headed e.val c name data
  rw [same]
  exact readEvent_other d e apart rest

end Reading

theorem flatMap_own {A B : Type} [DecidableEq A] (items : List A) (distinct : items.Nodup) (a : A) (member : a ∈ items)
    (value : List B) : items.flatMap (fun item => (if item = a then some value else none).getD []) = value := by
  have flat : items.flatMap (fun item => (if item = a then some value else none).getD []) =
      (items.filterMap fun item => if item = a then some value else none).flatten := by
    clear member distinct
    induction items with
    | nil => rfl
    | cons item rest ih =>
      rw [List.flatMap_cons,ih]
      by_cases own : item = a <;> simp [own]
  rw [flat,filterMap_own items distinct a (some value),if_pos member]
  simp

section Receiving
variable {H : Type} [DecidableEq H] (network : Network H) (a : H)

theorem received_reached (earlier : Nat) (transmissions : List (Transmission H))
    (kept : reached network a earlier transmissions = true) :
    received network a earlier transmissions = transmissions.filterMap (Transmission.textTo a) := by
  induction transmissions generalizing earlier with
  | nil => rfl
  | cons transmission rest ih =>
    rw [reached,Bool.and_eq_true,Bool.or_eq_true] at kept
    rw [received,ih _ kept.2]
    cases told : transmission.textTo a with
    | none => rw [List.filterMap_cons_none told,ite_self,Option.toList_none,List.nil_append]
    | some text =>
      have accepted : network.accepts earlier transmission = true := by
        rw [told] at kept
        exact kept.1.resolve_left (by simp)
      rw [if_pos accepted,List.filterMap_cons_some told,Option.toList_some,List.singleton_append]

/-- The texts that a client has received from a place in the transmissions on. -/
def listened (n : Nat) (transmissions : List (Transmission H)) : List Text :=
  received network a n (transmissions.drop n)

theorem listened_append (n : Nat) (first second : List (Transmission H)) (within : n ≤ first.length) :
    listened network a n (first ++ second) = listened network a n first ++ received network a first.length second := by
  rw [listened,List.drop_append_of_le_length within,received_append,listened,List.length_drop,
    Nat.add_sub_cancel' within]

theorem attempts_reached (earlier : Nat) (transmissions : List (Transmission H))
    (all : (Flotilla.attempts network earlier transmissions).2 = true) :
    (Flotilla.attempts network earlier transmissions).1 = transmissions ∧
      reached network a earlier transmissions = true := by
  induction transmissions generalizing earlier with
  | nil => exact ⟨rfl,rfl⟩
  | cons transmission rest ih =>
    rw [Flotilla.attempts] at all ⊢
    split at all
    next accepted =>
      obtain ⟨same,kept⟩ := ih (earlier + 1) all
      rw [if_pos accepted,reached,accepted,Bool.or_true,Bool.true_and]
      exact ⟨congrArg (transmission :: ·) same,kept⟩
    next => contradiction

end Receiving

namespace Flotilla
variable {H : Type}

/-- What a pass says about a dock. -/
def passTexts (f : Flotilla H) (e : Fin maxDocks) : List Text :=
  (f.dock e).passMessages.map (Message.text (f.dock e).index)

def waiting (f : Flotilla H) (d : Fin maxDocks) : List ModuleEvent := (f.dock d).eventQueue.filterMap (readEvent d.val)

theorem wired_texts (f : Flotilla H) (e : Fin maxDocks) (wired : (f.dock e).Wired e) (text : Text)
    (said : text ∈ f.passTexts e) :
    (∃ event : ModuleEvent, text = event.text e.val ∧ text ∈ (f.dock e).eventQueue) ∨
      ∃ c name data, text = (Message.value c name data).text e.val := by
  unfold passTexts at said
  rw [wired.labelled.own] at said
  obtain ⟨message,passed,rfl⟩ := List.mem_map.mp said
  cases message with
  | value c name data => exact .inr ⟨c,name,data,rfl⟩
  | event text =>
    have flushed : text ∈ (f.dock e).eventQueue := by
      rcases List.mem_append.mp passed with queued | polled
      · obtain ⟨other,waiting,same⟩ := List.mem_map.mp queued
        rw [← Message.event.inj same]
        exact waiting
      · split at polled
        · obtain ⟨x,_,pending⟩ := List.mem_flatMap.mp polled
          unfold FlotillaDock.pendingCommand at pending
          split at pending
          · exact absurd (List.mem_singleton.mp pending) (by simp)
          · contradiction
        · contradiction
    obtain ⟨event,same⟩ := wired.labelled.events text flushed
    exact .inl ⟨event,same,flushed⟩

theorem passTexts_elsewhere (f : Flotilla H) (d e : Fin maxDocks) (wired : (f.dock e).Wired e) (apart : e ≠ d) :
    (f.passTexts e).filterMap (readEvent d.val) = [] := by
  apply List.filterMap_eq_nil_iff.mpr
  intro text said
  rcases f.wired_texts e wired text said with ⟨event,rfl,_⟩ | ⟨c,name,data,rfl⟩
  · exact readEvent_elsewhere d e apart event
  · exact readEvent_value_elsewhere d e apart c name data

theorem passTexts_events (f : Flotilla H) (d : Fin maxDocks) (wired : (f.dock d).Wired d) :
    (f.passTexts d).filterMap (readEvent d.val) = f.waiting d := by
  unfold passTexts waiting FlotillaDock.passMessages
  rw [List.map_append,passMessages_events,List.filterMap_append,wired.labelled.own]
  have values : (List.map (Message.text d.val) (if (f.dock d).state = .connected
      then (List.finRange maxChannels).flatMap (f.dock d).pendingCommand else [])).filterMap (readEvent d.val) = [] := by
    apply List.filterMap_eq_nil_iff.mpr
    intro text said
    obtain ⟨message,passed,rfl⟩ := List.mem_map.mp said
    split at passed
    · obtain ⟨x,_,pending⟩ := List.mem_flatMap.mp passed
      unfold FlotillaDock.pendingCommand at pending
      split at pending
      · rw [List.mem_singleton.mp pending]
        exact readEvent_value d.val x _ _
      · contradiction
    · contradiction
  rw [values,List.append_nil]

/-- An event in a greeting or a goodbye tells how the module stands. -/
theorem greeting_event (f : Flotilla H) (wired : ∀ e, (f.dock e).Wired e) (hdl a : H) (d : Fin maxDocks) (text : Text)
    (event : ModuleEvent) (sent : .text a text ∈ f.greeting hdl ∨ .text a text ∈ f.farewell)
    (read : readEvent d.val text = some event) : event.shown = (f.dock d).table event.channel := by
  have plain (head : text.head? ≠ some 'D') : event.shown = (f.dock d).table event.channel := by
    rw [readEvent_plain d.val text head] at read
    contradiction
  rcases sent with greeted | ended
  · rcases List.mem_cons.mp greeted with first | later
    · apply plain
      rw [(Transmission.text.inj first).2]
      exact by simp
    · rcases List.mem_append.mp later with inside | last
      · obtain ⟨e,_,docked⟩ := List.mem_flatMap.mp inside
        unfold dockGreeting at docked
        split at docked
        · rcases List.mem_cons.mp docked with ident | modules
          · contradiction
          · obtain ⟨x,_,shown⟩ := List.mem_flatMap.mp modules
            unfold moduleGreeting at shown
            split at shown
            · rw [(Transmission.text.inj (List.mem_singleton.mp shown)).2,FlotillaDock.moduleEvent_eq,
                (wired e).labelled.own] at read
              by_cases own : e = d
              · subst own
                rw [readEvent_text] at read
                rw [← Option.some.inj read]
                rfl
              · rw [readEvent_elsewhere d e own] at read
                contradiction
            · contradiction
        · contradiction
      · apply plain
        rw [(Transmission.text.inj (List.mem_singleton.mp last)).2]
        exact by simp
  · obtain ⟨client,_,ended⟩ := List.mem_flatMap.mp ended
    rcases List.mem_cons.mp ended with bye | closed
    · apply plain
      rw [(Transmission.text.inj bye).2]
      exact by simp
    · exact absurd (List.mem_singleton.mp closed) (by simp)

theorem greeting_covers (f : Flotilla H) (wired : ∀ e, (f.dock e).Wired e) (a : H) (d : Fin maxDocks) (c : Fin maxChannels)
    (connected : ((f.dock d).module c).state = .moduleConnected) :
    .text a (((f.dock d).event c).text d.val) ∈ f.greeting a := by
  refine List.mem_cons_of_mem _ (List.mem_append_left _ (List.mem_flatMap.mpr ⟨d,List.mem_finRange d,?_⟩))
  rw [dockGreeting,if_pos ((wired d).connected c connected)]
  refine List.mem_cons_of_mem _ (List.mem_flatMap.mpr ⟨c,List.mem_finRange c,?_⟩)
  rw [moduleGreeting,if_pos connected,(f.dock d).moduleEvent_eq c,(wired d).labelled.own]
  exact List.mem_singleton.mpr rfl

variable [DecidableEq H]

theorem passSends_texts (f : Flotilla H) (a : H) (e : Fin maxDocks) :
    (f.passSends e).filterMap (Transmission.textTo a) = if a ∈ f.audience e.val then f.passTexts e else [] := by
  have one (command : Text) : ((f.audience e.val).map (Transmission.text · command)).filterMap (Transmission.textTo a) =
      if a ∈ f.audience e.val then [command] else [] := by
    rw [List.filterMap_map]
    exact filterMap_own (f.audience e.val) (f.audience_nodup e.val) a (some command)
  rw [passSends,List.filterMap_flatMap]
  simp only [one]
  split
  · exact List.flatMap_singleton' _
  · exact List.flatMap_eq_nil_iff.mpr fun _ _ => rfl

theorem pass_texts (f : Flotilla H) (a : H) :
    ((List.finRange maxDocks).flatMap f.passSends).filterMap (Transmission.textTo a) =
      (List.finRange maxDocks).flatMap fun e => if a ∈ f.audience e.val then f.passTexts e else [] := by
  rw [List.filterMap_flatMap]
  exact List.flatMap_congr fun e _ => f.passSends_texts a e

/-- A member of a dock's audience is sent the events that wait there, in order. -/
theorem pass_events (f : Flotilla H) (wired : ∀ e, (f.dock e).Wired e) (a : H) (d : Fin maxDocks) (due : a ∈ f.audience d.val) :
    (((List.finRange maxDocks).flatMap f.passSends).filterMap (Transmission.textTo a)).filterMap (readEvent d.val) =
      f.waiting d := by
  have split (e : Fin maxDocks) : (if a ∈ f.audience e.val then f.passTexts e else []).filterMap (readEvent d.val) =
      (if e = d then some (f.waiting d) else none).getD [] := by
    by_cases own : e = d
    · subst own
      rw [if_pos due,if_pos rfl]
      exact f.passTexts_events e (wired e)
    · rw [if_neg own,Option.getD_none]
      split
      · exact f.passTexts_elsewhere d e (wired e) own
      · rfl
  rw [pass_texts,List.filterMap_flatMap]
  simp only [split]
  exact flatMap_own (List.finRange maxDocks) (List.nodup_finRange _) d (List.mem_finRange d) _

/-- What a pass says that reads as an event of a dock waits there. -/
theorem pass_event_waits (f : Flotilla H) (wired : ∀ e, (f.dock e).Wired e) (a : H) (d : Fin maxDocks) (text : Text)
    (event : ModuleEvent) (sent : .text a text ∈ (List.finRange maxDocks).flatMap f.passSends)
    (read : readEvent d.val text = some event) : event ∈ f.waiting d := by
  obtain ⟨e,_,sent⟩ := List.mem_flatMap.mp sent
  have said : text ∈ (f.passSends e).filterMap (Transmission.textTo a) :=
    List.mem_filterMap.mpr ⟨_,sent,by simp [Transmission.textTo]⟩
  rw [passSends_texts] at said
  split at said
  · rcases f.wired_texts e (wired e) text said with ⟨other,same,queued⟩ | ⟨c,name,data,same⟩
    · by_cases own : e = d
      · subst own
        exact List.mem_filterMap.mpr ⟨text,queued,read⟩
      · rw [same,readEvent_elsewhere d e own other] at read
        contradiction
    · by_cases own : e = d
      · subst own
        rw [same,readEvent_value] at read
        contradiction
      · rw [same,readEvent_value_elsewhere d e own] at read
        contradiction
  · contradiction

end Flotilla

end FlotillaDaemon
