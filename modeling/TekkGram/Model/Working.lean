import TekkGram.Interaction.Trace
import TekkGram.Model.Network

/-!
# A backend on which calls work

A strategy that answers every call of a run whenever the world allows it. Generated
names and ids are the numbers of the calls that ask for them. Overriding it at one call
gives the runs in which that call alone fails.
-/

namespace TekkGram

open Interaction

/-- A world with no document, no object and nobody signed in. -/
def World.initial : World where
  firestore := fun _ => ∅
  storage := fun _ => none
  urls := []
  uuids := []
  loading := fun _ => false
  authState := .unknown
  currentUser := none

/-- The signed-in user of the working backend. -/
def someUser : FirebaseUser := ⟨"u", some "U", none, none, none⟩

/-- Answer the `n`-th call of a run. -/
def World.working (n : Nat) (w : World) : (c : Call) → Fallible Exc Ans c
  | .setLoading _ _ => .ok ()
  | .authState => .ok w.authState
  | .setAuthState _ => .ok ()
  | .currentUser => .ok w.currentUser
  | .now => .ok ⟨n, ""⟩
  | .uuidV4 => .ok (toString n)
  | .readAsBytesSync file => .ok ⟨file, 4, 3⟩
  | .decodeImage bytes => .ok (some ⟨bytes.source, bytes.width, bytes.height⟩)
  | .copyResize image width => .ok ⟨image.source, width, image.height⟩
  | .encodeJpg image => .ok ⟨image.source, image.width, image.height⟩
  | .thumbnailData video _ _ => .ok (some ⟨video, 4, 3⟩)
  | .getAspectRatio bytes => .ok bytes.aspectRatio
  | .putData ref _ => .ok ⟨ref⟩
  | .putFile ref _ => .ok ⟨ref⟩
  | .getDownloadURL ref =>
    if (w.storage ref).isSome then .ok (ref.folder ++ "/" ++ ref.name)
    else .error .objectNotFound
  | .deleteObject ref => if (w.storage ref).isSome then .ok () else .error .objectNotFound
  | .get query => .ok (query.eval (w.firestore query.collection))
  | .add _ _ => .ok ⟨toString n, n⟩
  | .update path id _ =>
    if (w.firestore path)[id]?.isSome then .ok () else .error .documentNotFound
  | .delete _ _ => .ok ()
  | .commit _ => .ok n
  | .googleSignIn => .ok (some ⟨"g"⟩)
  | .authentication _ => .ok ⟨none, none⟩
  | .signInWithCredential _ => .ok someUser
  | .firebaseSignOut => .ok ()
  | .googleSignOut => .ok ()

/-- Let the `k`-th call fail and answer the others. -/
def World.failingAt (k n : Nat) (w : World) (c : Call) : Fallible Exc Ans c :=
  if n = k then .error .unavailable else w.working n c

/-- Let every decoder report that the file is no picture, and answer the other calls. -/
def World.undecodable (n : Nat) (w : World) : (c : Call) → Fallible Exc Ans c
  | .decodeImage _ => .ok none
  | c => w.working n c

/-- Let every clock show the same time, and answer the other calls. -/
def World.simultaneous (n : Nat) (w : World) : (c : Call) → Fallible Exc Ans c
  | .now => .ok ⟨0, ""⟩
  | c => w.working n c

/-- Everything but a generated name or id is accepted as answered. -/
theorem World.working_accepted (n : Nat) (w : World) (c : Call) (huuid : c ≠ .uuidV4)
    (hadd : ∀ path payload, c ≠ .add path payload) : (w.step c (w.working n c)).isSome := by
  cases c with
  | uuidV4 => exact absurd rfl huuid
  | add path payload => exact absurd rfl (hadd path payload)
  | getDownloadURL ref =>
    cases h : w.storage ref <;>
      simp [World.working, World.step, World.fails, World.perform, h]
  | deleteObject ref =>
    cases h : w.storage ref <;>
      simp [World.working, World.step, World.fails, World.perform, h]
  | update path id fields =>
    cases h : (w.firestore path)[id]? <;>
      simp [World.working, World.step, World.fails, World.perform, h]
  | _ => simp [World.working, World.step, World.perform]

/-- The environment in which every backend call works: a call fails only when the document or
the object it needs does not exist. -/
def World.workingStep : Environment World (Fallible Exc Ans) := fun w c r =>
  match r with
  | .ok a => w.step c (.ok a)
  | .error e => if e = .unavailable then none else w.step c (.error e)

theorem World.workingStep_accepts {w w' : World} {c : Call} {r : Fallible Exc Ans c}
    (h : w.workingStep c r = some w') : w.step c r = some w' ∧ r ≠ .error .unavailable := by
  cases r with
  | ok a => exact ⟨h, nofun⟩
  | error e =>
    simp only [World.workingStep] at h
    split at h
    · cases h
    · rename_i he
      exact ⟨h, fun heq => he (Except.error.inj heq)⟩

theorem World.working_ne_unavailable (n : Nat) (w : World) (c : Call) :
    w.working n c ≠ .error .unavailable := by
  cases c with
  | getDownloadURL ref => cases h : w.storage ref <;> simp [World.working, h]
  | deleteObject ref => cases h : w.storage ref <;> simp [World.working, h]
  | update path id fields => cases h : (w.firestore path)[id]? <;> simp [World.working, h]
  | _ => simp [World.working]

/-- The working answers are accepted when every backend call works. -/
theorem World.workingStep_working (n : Nat) (w : World) (c : Call) (huuid : c ≠ .uuidV4)
    (hadd : ∀ path payload, c ≠ .add path payload) :
    (w.workingStep c (w.working n c)).isSome := by
  have haccepted := w.working_accepted n c huuid hadd
  cases hr : w.working n c with
  | ok a => rwa [hr] at haccepted
  | error e =>
    have he : e ≠ .unavailable := by
      rintro rfl
      exact w.working_ne_unavailable n c hr
    simp only [World.workingStep, he, ite_false]
    rwa [hr] at haccepted

/-- A run on which every backend call works is a run without an outside failure. -/
theorem World.runs_of_workingStep {β : Type} {p : Program (Fallible Exc Ans) β} {w w' : World}
    {tr : List AppEvent} {b : β} (h : Runs World.workingStep w p tr b w') :
    Runs World.step w p tr b w' ∧ ¬ Threw Exc.unavailable tr := by
  have hmono : Runs World.step w p tr b w' ∧ ∀ e ∈ tr, e.reply ≠ .error .unavailable :=
    h.mono fun w c r w' hr => World.workingStep_accepts hr
  refine ⟨hmono.1, ?_⟩
  rintro ⟨c, hmem⟩
  exact hmono.2 _ hmem rfl

/-- A network of equal devices. -/
def Network.ofWorld (w : World) : Network :=
  ⟨w.firestore, w.storage, w.urls, w.uuids, fun _ => ⟨w.loading, w.authState, w.currentUser⟩⟩

/-- The working backend as every device sees it. -/
def Network.working (k : Nat) (n : Network) (c : Nat × Call) : AtPlace Nat (Fallible Exc Ans) c :=
  World.working k (n.view c.1) c.2

end TekkGram
