import FlotillaDaemon.PassDelivery

/-! The greeting as a format. A client that reads the frames of a greeting learns the version and
the address of the daemon, which docks are connected, what each says of itself, and its modules. -/
namespace FlotillaDaemon
open Cpp Retained Replay

inductive Frame
  | text (message : Text)
  | binary (message : Text)
  deriving DecidableEq

/-- The frame that a client gets by a call of the server. -/
def Transmission.frameTo {H : Type} [DecidableEq H] (a : H) : Transmission H → Option Frame
  | .text hdl message => if hdl = a then some (.text message) else none
  | .binary hdl message => if hdl = a then some (.binary message) else none
  | .close _ => none

structure DockSnapshot where
  dock : Fin maxDocks
  ident : Text
  table : Fin maxChannels → Option Text

structure Snapshot where
  version : Text
  address : Text
  docks : List DockSnapshot

/-- The texts in front of the first identification, and each identification with those behind it. -/
def readSections : List Frame → Option (List Text × List (Text × List Text))
  | [] => none
  | .binary ident :: rest => (readSections rest).map fun read => ([],(ident,read.1) :: read.2)
  | .text message :: rest =>
    if rest = [] then if message = "# Done".toList then some ([],[]) else none
    else (readSections rest).map fun read => (message :: read.1,read.2)

/-- The number of a dock is the last field of its identification. -/
def identDock (ident : Text) : Option (Fin maxDocks) :=
  (List.finRange maxDocks).find? fun d => decide (decimal d.val = ident.rtakeWhile (· ≠ ','))

def readSection (ident : Text) (messages : List Text) : Option DockSnapshot :=
  (identDock ident).map fun d => ⟨d,ident,view d.val messages⟩

def readDaemon (message : Text) : Option (Text × Text) :=
  (message.dropPrefix? "# Daemon: ".toList).map fun fields =>
    (fields.takeWhile (· ≠ ','),(fields.dropWhile (· ≠ ',')).tail)

def readGreeting : List Frame → Option Snapshot
  | .text first :: rest => do
    let (version,address) ← readDaemon first
    let (stray,sections) ← readSections rest
    if stray ≠ [] then failure
    let docks ← sections.mapM fun read => readSection read.1 read.2
    return ⟨version,address,docks⟩
  | _ => none

def sectionFrames (part : Text × List Text) : List Frame := .binary part.1 :: part.2.map .text

theorem readSections_texts (messages : List Text) (rest : List Frame) (more : rest ≠ []) (stray : List Text)
    (sections : List (Text × List Text)) (read : readSections rest = some (stray,sections)) :
    readSections (messages.map .text ++ rest) = some (messages ++ stray,sections) := by
  induction messages with
  | nil => exact read
  | cons message later ih =>
    have behind : later.map Frame.text ++ rest ≠ [] := List.append_ne_nil_of_right_ne_nil _ more
    rw [List.map_cons,List.cons_append,readSections,if_neg behind,ih]
    rfl

theorem readSections_sections (sections : List (Text × List Text)) :
    readSections (sections.flatMap sectionFrames ++ [.text "# Done".toList]) = some ([],sections) := by
  induction sections with
  | nil => exact (if_pos rfl).trans (if_pos rfl)
  | cons first later ih =>
    have texts := readSections_texts first.2 _ (by simp) [] later ih
    rw [List.append_nil] at texts
    rw [List.flatMap_cons,sectionFrames,List.append_assoc,List.cons_append,readSections,texts]
    rfl

theorem readDaemon_daemon (address : Text) :
    readDaemon ("# Daemon: ".toList ++ daemonVersionString ++ ",".toList ++ address) = some (daemonVersionString,address) := by
  have cut : ("# Daemon: ".toList ++ daemonVersionString ++ ",".toList ++ address).dropPrefix? "# Daemon: ".toList =
      some (daemonVersionString ++ ",".toList ++ address) :=
    List.dropPrefix?_eq_some_iff.mpr ⟨_,by simp only [List.append_assoc],beq_self_eq_true _⟩
  rw [readDaemon,cut]
  rfl

theorem identDock_ident (dock : FlotillaDock) (d : Fin maxDocks) (own : dock.index = d.val) : identDock dock.ident = some d := by
  have field : dock.ident.rtakeWhile (· ≠ ',') = decimal d.val := by
    obtain ⟨digit,_⟩ := decimal_channel d
    have plain : ∀ e : Fin 8, digitOf e ≠ ',' := by decide
    unfold FlotillaDock.ident
    rw [own,digit,List.rtakeWhile_concat_pos _ _ _ (by simpa using plain d),
      show ",".toList = [','] from rfl,List.rtakeWhile_concat_neg _ _ _ (by simp)]
    rfl
  have distinct : ∀ e : Fin maxDocks, decimal e.val = decimal d.val → e = d := by
    have digits : ∀ i j : Fin 8, digitOf i = digitOf j → i = j := by decide
    intro e same
    rw [(decimal_channel e).1,(decimal_channel d).1] at same
    exact digits e d (List.cons.inj same).1
  rw [identDock,field]
  cases found : (List.finRange maxDocks).find? fun e => decide (decimal e.val = decimal d.val) with
  | none => exact absurd (List.find?_eq_none.mp found d (List.mem_finRange d)) (by simp)
  | some e =>
    have same : decide (decimal e.val = decimal d.val) = true :=
      List.find?_some (p := fun e : Fin maxDocks => decide (decimal e.val = decimal d.val)) found
    exact congrArg some (distinct e (of_decide_eq_true same))

namespace Flotilla
variable {H : Type}

def moduleText (f : Flotilla H) (d : Fin maxDocks) (c : Fin maxChannels) : Option Text :=
  if ((f.dock d).module c).state = .moduleConnected then some ((f.dock d).moduleEvent c) else none

def dockSection (f : Flotilla H) (d : Fin maxDocks) : Option (Text × List Text) :=
  if (f.dock d).state = .connected
  then some ((f.dock d).ident,(List.finRange maxChannels).filterMap (f.moduleText d)) else none

def dockSnapshot (f : Flotilla H) (d : Fin maxDocks) : Option DockSnapshot :=
  if (f.dock d).state = .connected then some ⟨d,(f.dock d).ident,(f.dock d).table⟩ else none

/-- What there is to know when a client is greeted. -/
def snapshot (f : Flotilla H) : Snapshot :=
  ⟨daemonVersionString,f.canonicalAddress,(List.finRange maxDocks).filterMap f.dockSnapshot⟩

theorem moduleTexts_view (f : Flotilla H) (d : Fin maxDocks) (own : (f.dock d).index = d.val) :
    view d.val ((List.finRange maxChannels).filterMap (f.moduleText d)) = (f.dock d).table := by
  have text (c : Fin maxChannels) : (f.dock d).moduleEvent c = ((f.dock d).event c).text d.val := by
    rw [(f.dock d).moduleEvent_eq c,own]
  apply replay_covering
  · intro event said
    obtain ⟨message,listed,read⟩ := List.mem_filterMap.mp said
    obtain ⟨c,_,shown⟩ := List.mem_filterMap.mp listed
    unfold moduleText at shown
    split at shown
    · rw [← Option.some.inj shown,text,readEvent_text] at read
      rw [← Option.some.inj read]
      rfl
    · contradiction
  · intro c other
    have connected : ((f.dock d).module c).state = .moduleConnected := by
      cases state : ((f.dock d).module c).state with
      | moduleConnected => rfl
      | moduleDisconnected => exact absurd ((f.dock d).table_disconnected c state).symm other
    refine ⟨(f.dock d).event c,List.mem_filterMap.mpr ⟨(f.dock d).moduleEvent c,?_,?_⟩,rfl⟩
    · exact List.mem_filterMap.mpr ⟨c,List.mem_finRange c,if_pos connected⟩
    · rw [text]
      exact readEvent_text d.val _

theorem sections_read (f : Flotilla H) (own : ∀ d, (f.dock d).index = d.val) (docks : List (Fin maxDocks)) :
    (docks.filterMap f.dockSection).mapM (fun read => readSection read.1 read.2) =
      some (docks.filterMap f.dockSnapshot) := by
  induction docks with
  | nil => rfl
  | cons d rest ih =>
    by_cases connected : (f.dock d).state = .connected
    · have here : f.dockSection d = some ((f.dock d).ident,(List.finRange maxChannels).filterMap (f.moduleText d)) :=
        if_pos connected
      have read : readSection (f.dock d).ident ((List.finRange maxChannels).filterMap (f.moduleText d)) =
          some ⟨d,(f.dock d).ident,(f.dock d).table⟩ := by
        rw [readSection,identDock_ident _ d (own d),Option.map_some,f.moduleTexts_view d (own d)]
      have known : f.dockSnapshot d = some ⟨d,(f.dock d).ident,(f.dock d).table⟩ := if_pos connected
      rw [List.filterMap_cons_some here,List.mapM_cons,ih,read,List.filterMap_cons_some known]
      rfl
    · have unsaid : f.dockSection d = none := if_neg connected
      have unknown : f.dockSnapshot d = none := if_neg connected
      rw [List.filterMap_cons_none unsaid,List.filterMap_cons_none unknown]
      exact ih

variable [DecidableEq H]

theorem moduleGreeting_frames (f : Flotilla H) (a : H) (d : Fin maxDocks) (channels : List (Fin maxChannels)) :
    (channels.flatMap (f.moduleGreeting a d)).filterMap (Transmission.frameTo a) =
      (channels.filterMap (f.moduleText d)).map .text := by
  induction channels with
  | nil => rfl
  | cons c rest ih =>
    rw [List.flatMap_cons,List.filterMap_append,ih]
    unfold moduleGreeting
    by_cases connected : ((f.dock d).module c).state = .moduleConnected
    · have shown : f.moduleText d c = some ((f.dock d).moduleEvent c) := if_pos connected
      rw [if_pos connected,List.filterMap_cons_some shown]
      simp [Transmission.frameTo]
    · have hidden : f.moduleText d c = none := if_neg connected
      rw [if_neg connected,List.filterMap_cons_none hidden]
      rfl

theorem dockGreeting_frames (f : Flotilla H) (a : H) (docks : List (Fin maxDocks)) :
    (docks.flatMap (f.dockGreeting a)).filterMap (Transmission.frameTo a) =
      (docks.filterMap f.dockSection).flatMap sectionFrames := by
  induction docks with
  | nil => rfl
  | cons d rest ih =>
    rw [List.flatMap_cons,List.filterMap_append,ih]
    unfold dockGreeting
    by_cases connected : (f.dock d).state = .connected
    · have ident : (Transmission.binary a (f.dock d).ident).frameTo a = some (.binary (f.dock d).ident) := if_pos rfl
      have here : f.dockSection d = some ((f.dock d).ident,(List.finRange maxChannels).filterMap (f.moduleText d)) :=
        if_pos connected
      rw [if_pos connected,List.filterMap_cons_some here,List.filterMap_cons_some ident,moduleGreeting_frames,
        List.flatMap_cons]
      rfl
    · have unsaid : f.dockSection d = none := if_neg connected
      rw [if_neg connected,List.filterMap_cons_none unsaid]
      rfl

theorem greeting_read (f : Flotilla H) (own : ∀ d, (f.dock d).index = d.val) (a : H) :
    readGreeting ((f.greeting a).filterMap (Transmission.frameTo a)) = some f.snapshot := by
  have first (message : Text) : (Transmission.text a message).frameTo a = some (.text message) := if_pos rfl
  have frames : (f.greeting a).filterMap (Transmission.frameTo a) =
      .text ("# Daemon: ".toList ++ daemonVersionString ++ ",".toList ++ f.canonicalAddress) ::
        (((List.finRange maxDocks).filterMap f.dockSection).flatMap sectionFrames ++ [.text "# Done".toList]) := by
    rw [greeting,List.filterMap_cons_some (first _),List.filterMap_append,dockGreeting_frames,
      List.filterMap_cons_some (first _)]
    rfl
  rw [frames,readGreeting,readDaemon_daemon,readSections_sections]
  change (do
    let docks ← ((List.finRange maxDocks).filterMap f.dockSection).mapM
      fun (read : Text × List Text) => readSection read.1 read.2
    return (⟨daemonVersionString,f.canonicalAddress,docks⟩ : Snapshot)) = _
  rw [f.sections_read own]
  rfl

end Flotilla

/-- At any time, a client that `init_client` serves to the end can read the state of the daemon
back from the frames that it is sent. -/
theorem greeting_reads_back {H : Type} [DecidableEq H] (network : Network H) (canonicalAddress : Text)
    (inputs : List (HostInput H)) (a : H) :
    let f := ((hosts network).run (.new canonicalAddress) inputs).flotilla
    ∀ after, (Flotilla.initClient network a).run f = .ok () after →
      readGreeting ((after.transmissions.drop f.transmissions.length).filterMap (Transmission.frameTo a)) =
        some f.snapshot := by
  intro f after returned
  have sound := Host.sound_run network canonicalAddress inputs
  have ran := (Flotilla.initClient_sends network a f).symm.trans returned
  rw [Flotilla.transmitAll_run] at ran
  split at ran
  next all =>
    obtain ⟨_,rfl⟩ := EStateM.Result.ok.inj ran
    rw [(attempts_reached network a _ _ all).1]
    change readGreeting (((f.transmissions ++ f.greeting a).drop f.transmissions.length).filterMap _) = _
    rw [List.drop_left]
    exact f.greeting_read (fun d => (sound.wired d).labelled.own) a
  next => contradiction

theorem greeting_reads_back_visit :
    let f := ((hosts allSucceed).run (.new "flotilla".toList) dialVisit).flotilla
    readGreeting (((f.after (Flotilla.initClient allSucceed 1)).transmissions.drop f.transmissions.length).filterMap
      (Transmission.frameTo 1)) = some f.snapshot := by
  intro f
  have all : (Flotilla.attempts allSucceed f.transmissions.length (f.greeting 1)).2 = true := by decide +kernel
  have ran := (Flotilla.initClient_sends allSucceed 1 f).trans
    ((Flotilla.transmitAll_run allSucceed (f.greeting 1) f).trans (if_pos all))
  apply greeting_reads_back allSucceed "flotilla".toList dialVisit 1
  change (Flotilla.initClient allSucceed 1).run f = .ok () (f.after (Flotilla.initClient allSucceed 1))
  rw [Flotilla.after,ran]

end FlotillaDaemon
