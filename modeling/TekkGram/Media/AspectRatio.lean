import Mathlib.Data.List.Basic
import TekkGram.Model.World

/-!
# The aspect ratio of a picture

The size of a picture is read from the stream of its decoded frames. The listener completes a future
at every frame and leaves errors to the stream, so that a second frame makes it throw, and a picture
that cannot be decoded leaves the future open for ever.
-/

namespace TekkGram

/-- A decoded frame, with its size in pixels. -/
structure ImageInfo where
  width : Nat
  height : Nat
  width_pos : 0 < width
  height_pos : 0 < height
  deriving DecidableEq, Repr

/-- The width of a frame over its height. -/
def ImageInfo.aspectRatio (imageInfo : ImageInfo) : ℚ := imageInfo.width / imageInfo.height

/-- What an image stream delivers. -/
inductive ImageStreamEvent where
  | frame (imageInfo : ImageInfo) (synchronousCall : Bool)
  | error (exception : Exc)
  deriving DecidableEq, Repr

/-- An event delivers a frame. -/
def ImageStreamEvent.isFrame : ImageStreamEvent → Bool
  | .frame _ _ => true
  | .error _ => false

/-- The callbacks of a listener that changes a state; that for errors may be left out. -/
structure ImageStreamListener (State : Type) where
  onImage : ImageInfo → Bool → State → State
  onError : Option (Exc → State → State)

/-- A stream calls its listener; an error is reported elsewhere if there is no callback for it. -/
def ImageStreamListener.receive {State : Type} (listener : ImageStreamListener State) (s : State) :
    ImageStreamEvent → State
  | .frame imageInfo synchronousCall => listener.onImage imageInfo synchronousCall s
  | .error exception =>
    match listener.onError with
    | none => s
    | some onError => onError exception s

/-- A completer of a future. -/
inductive Completer where
  | pending
  | completed (result : Except Exc ℚ)
  deriving DecidableEq

/-- `complete`, which throws if the future is completed already. -/
def Completer.complete : Completer → ℚ → Option Completer
  | .pending, value => some (.completed (.ok value))
  | .completed _, _ => none

namespace GetImageAspectRatio

/-- The completer, and how often the listener has thrown. -/
structure State where
  completer : Completer
  failures : Nat
  deriving DecidableEq

/-- The listener that `getAspectRatio` adds. -/
def listener : ImageStreamListener State where
  onImage imageInfo _ s :=
    match s.completer.complete imageInfo.aspectRatio with
    | some completer => { s with completer }
    | none => { s with failures := s.failures + 1 }
  onError := none

/-- The call after these events of the stream; it returns the future of the completer. -/
def after (events : List ImageStreamEvent) : State :=
  events.foldl listener.receive ⟨.pending, 0⟩

/-- The future is completed, with the ratio of the first frame if a frame comes first and with an
error otherwise, and the listener has not thrown. -/
def SettlesOnce (events : List ImageStreamEvent) : Prop :=
  (match events with
    | [] => False
    | .frame imageInfo _ :: _ => (after events).completer = .completed (.ok imageInfo.aspectRatio)
    | .error _ :: _ => ∃ exception, (after events).completer = .completed (.error exception)) ∧
    (after events).failures = 0

section Events

variable {events : List ImageStreamEvent}

/-- Once the future is completed it stays so, and every further frame makes the listener throw. -/
theorem foldl_completed (result : Except Exc ℚ) (failures : Nat) :
    events.foldl listener.receive ⟨.completed result, failures⟩ =
      ⟨.completed result, failures + events.countP ImageStreamEvent.isFrame⟩ := by
  induction events generalizing failures with
  | nil => rfl
  | cons event events ih =>
    cases event with
    | frame imageInfo synchronousCall =>
      rw [List.foldl_cons, List.countP_cons_of_pos rfl, ← Nat.add_assoc, Nat.add_right_comm]
      exact ih (failures + 1)
    | error exception =>
      rw [List.foldl_cons, List.countP_cons_of_neg Bool.false_ne_true]
      exact ih failures

/-- After a first frame the future has its ratio, and every further frame makes the listener
throw. -/
theorem after_frame (imageInfo : ImageInfo) (synchronousCall : Bool) :
    after (.frame imageInfo synchronousCall :: events) =
      ⟨.completed (.ok imageInfo.aspectRatio), events.countP ImageStreamEvent.isFrame⟩ := by
  refine (foldl_completed (.ok imageInfo.aspectRatio) 0).trans ?_
  rw [Nat.zero_add]

/-- A first error is not noticed. -/
theorem after_error (exception : Exc) : after (.error exception :: events) = after events := rfl

/-- The future is never completed with an error. -/
theorem completer_after_ne_error (exception : Exc) :
    (after events).completer ≠ .completed (.error exception) := by
  induction events with
  | nil => exact nofun
  | cons event events ih =>
    cases event with
    | frame imageInfo synchronousCall =>
      rw [after_frame]
      exact nofun
    | error exception' =>
      rw [after_error]
      exact ih

/-- The future stays open exactly when no frame is delivered. -/
theorem completer_after_eq_pending_iff :
    (after events).completer = .pending ↔ ∀ event ∈ events, event.isFrame = false := by
  induction events with
  | nil => exact iff_of_true rfl nofun
  | cons event events ih =>
    rw [List.forall_mem_cons]
    cases event with
    | frame imageInfo synchronousCall =>
      rw [after_frame]
      exact iff_of_false nofun fun h => Bool.false_ne_true h.1.symm
    | error exception =>
      rw [after_error]
      exact ih.trans (and_iff_right rfl).symm

end Events

/-- The future settles once and the listener never throws exactly when a frame comes first and no
other frame comes after it. -/
theorem settlesOnce_iff (events : List ImageStreamEvent) :
    SettlesOnce events ↔ ∃ imageInfo synchronousCall rest,
      events = .frame imageInfo synchronousCall :: rest ∧
        ∀ event ∈ rest, event.isFrame = false := by
  unfold SettlesOnce
  cases events with
  | nil =>
    refine iff_of_false (fun h => h.1) ?_
    rintro ⟨imageInfo, synchronousCall, rest, he, -⟩
    cases he
  | cons event rest =>
    cases event with
    | frame imageInfo synchronousCall =>
      rw [after_frame]
      constructor
      · rintro ⟨-, hnone⟩
        exact ⟨imageInfo, synchronousCall, rest, rfl, by simpa using hnone⟩
      · rintro ⟨_, _, _, he, hrest⟩
        obtain ⟨-, rfl⟩ := List.cons.inj he
        exact ⟨rfl, List.countP_eq_zero.mpr (by simpa using hrest)⟩
    | error exception =>
      refine iff_of_false ?_ ?_
      · rintro ⟨⟨exception', herror⟩, -⟩
        exact completer_after_ne_error exception' herror
      · rintro ⟨imageInfo, synchronousCall, rest', he, -⟩
        cases he

/-- Two frames of an animated picture. -/
theorem not_settlesOnce_of_two_frames : ∃ events : List ImageStreamEvent, events ≠ [] ∧
    events.countP ImageStreamEvent.isFrame = 2 ∧ (after events).failures = 1 ∧
      ¬ SettlesOnce events := by
  refine ⟨[.frame ⟨4, 3, by decide, by decide⟩ false, .frame ⟨4, 3, by decide, by decide⟩ false],
    List.cons_ne_nil _ _, rfl, by rw [after_frame]; rfl, ?_⟩
  rintro ⟨-, hnone⟩
  rw [after_frame] at hnone
  cases hnone

/-- The call answers as the backend of the app is taken to answer: a first frame of the picture's
size completes the future with a ratio that is accepted as the answer. -/
theorem perform_getAspectRatio {w : World} {bytes : Uint8List} {imageInfo : ImageInfo}
    (hwidth : imageInfo.width = bytes.width) (hheight : imageInfo.height = bytes.height)
    (synchronousCall : Bool) (rest : List ImageStreamEvent) : ∃ ratio : ℚ,
      (after (.frame imageInfo synchronousCall :: rest)).completer = .completed (.ok ratio) ∧
        w.perform (.getAspectRatio bytes) ratio = some w := by
  refine ⟨imageInfo.aspectRatio, by rw [after_frame], if_pos ?_⟩
  rw [ImageInfo.aspectRatio, Uint8List.aspectRatio, hwidth, hheight]

end GetImageAspectRatio

end TekkGram
