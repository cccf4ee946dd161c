import FlotillaDaemon.Server
import FlotillaDaemon.Replay

/-! The two ways of copying a client. The copy constructor takes every member over; assignment
leaves the subscriptions of the object it assigns to. -/
namespace FlotillaDaemon
open Replay

inductive SubscriptionCall
  | subscribe (dockIdx : Int)
  | unsubscribe (dockIdx : Int)

namespace SubscriptionCall

def dockIdx : SubscriptionCall → Int
  | .subscribe dockIdx => dockIdx
  | .unsubscribe dockIdx => dockIdx

def subscribes : SubscriptionCall → Bool
  | .subscribe _ => true
  | .unsubscribe _ => false

def apply (client : FlotillaClient) : SubscriptionCall → FlotillaClient
  | .subscribe dockIdx => client.subscribe dockIdx
  | .unsubscribe dockIdx => client.unsubscribe dockIdx

end SubscriptionCall

namespace FlotillaClient

/-- The copy constructor. -/
def copy (src : FlotillaClient) : FlotillaClient where
  connected := src.connected
  ready := src.ready
  dockSubscription := src.dockSubscription
  commandQueue := src.commandQueue

def after (client : FlotillaClient) (calls : List SubscriptionCall) : FlotillaClient :=
  calls.foldl SubscriptionCall.apply client

/-- Nothing that the two clients answer tells them apart. -/
structure AnswersAlike (a b : FlotillaClient) : Prop where
  ready : a.ready = b.ready
  connected : a.connected = b.connected
  subscribed : ∀ dockIdx, a.subscribedTo dockIdx = b.subscribedTo dockIdx

theorem apply_flags (client : FlotillaClient) (call : SubscriptionCall) :
    (call.apply client).ready = client.ready ∧ (call.apply client).connected = client.connected := by
  cases call <;> exact ⟨rfl,rfl⟩

theorem apply_subscribed (client : FlotillaClient) (call : SubscriptionCall) :
    (call.apply client).subscribedTo = Function.update client.subscribedTo call.dockIdx call.subscribes := by
  ext d : 1
  cases call with
  | subscribe dockIdx | unsubscribe dockIdx =>
    by_cases own : d = dockIdx
    · subst own
      simp [SubscriptionCall.apply,SubscriptionCall.dockIdx,SubscriptionCall.subscribes,subscribe,unsubscribe,subscribedTo]
    · simp [SubscriptionCall.apply,SubscriptionCall.dockIdx,subscribe,unsubscribe,subscribedTo,own]

theorem after_flags (client : FlotillaClient) (calls : List SubscriptionCall) :
    (client.after calls).ready = client.ready ∧ (client.after calls).connected = client.connected := by
  induction calls generalizing client with
  | nil => exact ⟨rfl,rfl⟩
  | cons call rest ih =>
    have later := ih (call.apply client)
    have here := client.apply_flags call
    exact ⟨later.1.trans here.1,later.2.trans here.2⟩

theorem after_subscribed (client : FlotillaClient) (calls : List SubscriptionCall) :
    (client.after calls).subscribedTo =
      replay SubscriptionCall.dockIdx SubscriptionCall.subscribes client.subscribedTo calls := by
  induction calls generalizing client with
  | nil => rfl
  | cons call rest ih => exact (ih (call.apply client)).trans (congrArg (replay _ _ · rest) (client.apply_subscribed call))

/-- Assigned and copied clients answer alike after the same calls exactly when the object
assigned to already had the subscriptions of the docks that no call is about. -/
theorem copies_agree_iff (a b : FlotillaClient) (calls : List SubscriptionCall) :
    ((a.assign b).after calls).AnswersAlike (b.copy.after calls) ↔
      ∀ dockIdx, (∀ call ∈ calls, call.dockIdx ≠ dockIdx) → a.subscribedTo dockIdx = b.subscribedTo dockIdx := by
  have assigned := after_subscribed (a.assign b) calls
  have copied := after_subscribed b.copy calls
  constructor
  · intro alike dockIdx untouched
    have same := alike.subscribed dockIdx
    rw [assigned,copied,replay_untouched _ _ _ _ _ untouched,replay_untouched _ _ _ _ _ untouched] at same
    exact same
  · intro same
    have first := after_flags (a.assign b) calls
    have second := after_flags b.copy calls
    refine ⟨first.1.trans second.1.symm,first.2.trans second.2.symm,?_⟩
    intro dockIdx
    rw [assigned,copied,replay_apply,replay_apply]
    cases last : latest SubscriptionCall.dockIdx dockIdx calls with
    | some call => rfl
    | none =>
      apply same dockIdx
      intro call member own
      rw [latest,List.getLast?_eq_none_iff,List.filter_eq_nil_iff] at last
      exact last call member (decide_eq_true own)

theorem copies_fail_subscribed :
    ¬ ∀ (a b : FlotillaClient) (calls : List SubscriptionCall),
      ((a.assign b).after calls).AnswersAlike (b.copy.after calls) := by
  intro agree
  have kept := (agree (FlotillaClient.new.subscribe 0) .new []).subscribed 0
  exact absurd kept (by decide)

end FlotillaClient

end FlotillaDaemon
