import TekkGram.Interaction.Placed
import TekkGram.Model.World

/-!
# Several devices on one backend

The devices share Firestore, storage and the generated names. Each device has its own loading flags,
authentication state and current user.
-/

namespace TekkGram

open Interaction

/-- What one device holds in its own memory. -/
structure Device where
  loading : Notifier → Bool
  authState : AuthState
  currentUser : Option FirebaseUser

/-- The shared backend and the devices. -/
structure Network where
  firestore : CollectionPath → Collection
  storage : Reference → Option Blob
  urls : List (String × Reference)
  uuids : List String
  devices : Nat → Device

namespace Network

/-- The world as one device sees it. -/
@[simps] def view (n : Network) (i : Nat) : World where
  firestore := n.firestore
  storage := n.storage
  urls := n.urls
  uuids := n.uuids
  loading := (n.devices i).loading
  authState := (n.devices i).authState
  currentUser := (n.devices i).currentUser

/-- The network after a call that a device made. -/
@[simps] def record (n : Network) (i : Nat) (w : World) : Network where
  firestore := w.firestore
  storage := w.storage
  urls := w.urls
  uuids := w.uuids
  devices := Function.update n.devices i ⟨w.loading, w.authState, w.currentUser⟩

/-- The environment of the devices: a call acts on the world as its device sees it. -/
def step : Environment Network (AtPlace Nat (Fallible Exc Ans)) := fun n c r =>
  (World.step (n.view c.1) c.2 r).map (n.record c.1)

/-- A call that a device made is a step of its world. -/
theorem step_eq_some {n n' : Network} {c : Nat × Call} {r : AtPlace Nat (Fallible Exc Ans) c}
    (h : step n c r = some n') :
    ∃ w, World.step (n.view c.1) c.2 r = some w ∧ n'.firestore = w.firestore := by
  obtain ⟨w, hw, rfl⟩ := Option.map_eq_some_iff.mp h
  exact ⟨w, hw, rfl⟩

end Network

/-- The moves of operations on several devices. -/
abbrev DeviceMove := Move (AtPlace Nat (Fallible Exc Ans))

end TekkGram
