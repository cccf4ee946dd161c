import FlotillaDaemon.Module

/-! What a reconnect leaves of the module that was on the channel before. Connecting
empties the command queue and sets the name; the update queue and the remembered text
survive, and a later poll can tell. -/
namespace FlotillaDaemon
open Cpp Retained

namespace FlotillaModule

def Indistinguishable (first second : FlotillaModule) : Prop :=
  ∀ future : List Call, moduleCalls.answers first future = moduleCalls.answers second future

def Unused (m : FlotillaModule) : Prop := m.updateQueue = [] ∧ m.lastUpdate = []

private theorem connect_unused (m : FlotillaModule) (moduleName : Text)
    (disconnected : m.state = .moduleDisconnected) (unused : m.Unused) :
    m.connect moduleName = new.connect moduleName := by
  obtain ⟨emptied,forgotten⟩ := unused
  rw [connect_disconnected m moduleName disconnected,connect_disconnected new moduleName rfl,
    emptied,forgotten]
  rfl

private theorem polled_update (m : FlotillaModule) (first : Entry) (rest : List Entry)
    (waiting : m.updateQueue = first :: rest) (forgotten : m.lastUpdate = []) :
    moduleCalls.answers m [.getNextUpdate] = [(.getNextUpdate,.update true first.val)] := by
  rcases m.getNextUpdate_cases with ⟨idle,_⟩ | ⟨update,left,taken,polled⟩
  · simp [waiting] at idle
  · have front : first = update := by
      obtain ⟨_,queue,_⟩ := takeUpdate_some _ _ _ _ taken
      exact (List.cons.inj (waiting.symm.trans queue)).1
    have present := update.property
    simp only [Machine.answers,moduleCalls,polled,front,forgotten,ne_eq,present,not_false_eq_true,decide_true]

private theorem reported_command (m : FlotillaModule) (cmd : Text) (present : cmd ≠ [])
    (emptied : m.commandQueue = []) :
    moduleCalls.answers m [.queueCommand cmd,.getNextCommand] =
      [(.queueCommand cmd,.returned),
        (.getNextCommand,.command (if cmd = m.lastUpdate then [] else cmd))] := by
  have queued : (m.queueCommand cmd).commandQueue = [⟨cmd,present⟩] := by
    simp [queueCommand,enqueue_present _ _ present,emptied]
  rcases (m.queueCommand cmd).getNextCommand_cases with ⟨idle,_⟩ | ⟨command,left,taken,polled⟩
  · simp [queued] at idle
  · have lone : ⟨cmd,present⟩ = command := by
      rw [queued,(takeCommand_retains _).lone] at taken
      exact (Prod.mk.inj (Option.some.inj taken)).1
    simp only [Machine.answers,moduleCalls,polled,← lone]
    rfl

private theorem unused_of_indistinguishable (m : FlotillaModule) (moduleName : Text)
    (disconnected : m.state = .moduleDisconnected)
    (same : Indistinguishable (m.connect moduleName) (new.connect moduleName)) : m.Unused := by
  rw [connect_disconnected m moduleName disconnected,connect_disconnected new moduleName rfl] at same
  -- A remembered text is told by reporting it once more: a fresh module passes it on.
  have forgotten : m.lastUpdate = [] := by
    by_contra remembered
    have experiment := same [.queueCommand m.lastUpdate,.getNextCommand]
    rw [reported_command _ _ remembered rfl,reported_command _ _ remembered rfl] at experiment
    simp [new,remembered] at experiment
  refine ⟨?_,forgotten⟩
  cases waiting : m.updateQueue with
  | nil => rfl
  | cons first rest =>
    have experiment := same [.getNextUpdate]
    rw [polled_update ⟨.moduleConnected,moduleName,m.lastUpdate,[],m.updateQueue⟩ first rest waiting
      forgotten] at experiment
    simp [Machine.answers,moduleCalls,getNextUpdate,takeUpdate,new] at experiment

end FlotillaModule

open FlotillaModule

/-- After any history that ends disconnected, a reconnected module is like a fresh one
exactly when no update is queued and no text is remembered at that moment. -/
theorem reconnect_clean_iff (history : List Call) (moduleName : Text)
    (disconnected : (moduleCalls.run new history).state = .moduleDisconnected) :
    Indistinguishable ((moduleCalls.run new history).connect moduleName) (new.connect moduleName) ↔
      (moduleCalls.run new history).Unused := by
  constructor
  · exact unused_of_indistinguishable _ moduleName disconnected
  · intro unused future
    rw [connect_unused _ moduleName disconnected unused]

theorem reconnect_clean_dial :
    (moduleCalls.run new [.connect "dial".toList,.queueCommand "1".toList,.disconnect]).state =
        .moduleDisconnected ∧
      Indistinguishable
        ((moduleCalls.run new [.connect "dial".toList,.queueCommand "1".toList,.disconnect]).connect
          "touch".toList)
        (new.connect "touch".toList) :=
  ⟨by decide,(reconnect_clean_iff _ _ (by decide)).mpr (by unfold Unused; decide)⟩

theorem reconnect_stale_update :
    ¬ ∀ (history : List Call) (moduleName : Text),
      (moduleCalls.run new history).state = .moduleDisconnected →
      Indistinguishable ((moduleCalls.run new history).connect moduleName) (new.connect moduleName) := by
  intro clean
  have experiment := clean [.connect "motor".toList,.queueUpdate "63".toList,.disconnect] "motor".toList
    (by decide) [.getNextUpdate]
  exact absurd experiment (by decide)

end FlotillaDaemon
