import TekkGram.Interaction.Events
import TekkGram.Model.Strings
import TekkGram.Posts.MediaExist

/-!
# PostEditScreen

The screen edits the text of a post and picks new media for it. The picked files replace each
other, while their previews are added to the previews that are there. Saving takes the edit of the
media when there are previews, and otherwise the edit of the text, for which it takes the first
picked file as well.
-/

namespace TekkGram

open Interaction

/-- A file to preview, with its kind. -/
structure ThumbnailRequest where
  file : File
  fileType : FileType
  deriving DecidableEq, Repr

/-- What the dialog of `openCameraOption` returns: nothing, a `List<File>` from the gallery, or a
`List<File?>` with the one file of the other options. -/
inductive DialogResult where
  | dismissed
  | files (files : List File)
  | nullableFiles (files : List (Option File))
  deriving DecidableEq, Repr

/-- The picked files and their previews. The kind as which the files were picked is not kept by the
screens. -/
structure PickedMedia where
  mediaFile : List File
  thumbnailRequest : List ThumbnailRequest
  kind : FileType
  deriving DecidableEq, Repr

namespace PickedMedia

/-- Nothing is picked. -/
def none : PickedMedia := ⟨[], [], .image⟩

/-- The handler of a pick. A `List<File?>` is no `List<File>`, so that assigning it throws. -/
def pick (m : PickedMedia) (fileType : FileType) : DialogResult → PickedMedia
  | .dismissed => m
  | .nullableFiles _ => m
  | .files image =>
    { mediaFile := image
      thumbnailRequest := m.thumbnailRequest ++ image.map fun file => ⟨file, fileType⟩
      kind := fileType }

/-- Both lists are cleared. -/
def clear (m : PickedMedia) : PickedMedia := { m with mediaFile := [], thumbnailRequest := [] }

/-- The previews are those of the picked files, in their order and as their kind. -/
def Shown (m : PickedMedia) : Prop :=
  m.thumbnailRequest = m.mediaFile.map fun file => ⟨file, m.kind⟩

/-- A pick that returns a list of files finds no preview. -/
def FirstPick (m : PickedMedia) : DialogResult → Prop
  | .files _ => m.thumbnailRequest = []
  | _ => True

section Pick

variable {m : PickedMedia} {fileType : FileType} {result : DialogResult}

theorem shown_none : none.Shown := rfl

theorem shown_clear : m.clear.Shown := rfl

/-- A pick shows the picked files exactly when there was no preview before it. -/
theorem shown_pick_iff (h : m.Shown) : (m.pick fileType result).Shown ↔ m.FirstPick result := by
  cases result with
  | dismissed => exact iff_of_true h trivial
  | nullableFiles files => exact iff_of_true h trivial
  | files image => exact List.append_left_eq_self

/-- Picked files have previews. -/
theorem thumbnailRequest_pick (h : m.mediaFile ≠ [] → m.thumbnailRequest ≠ []) :
    (m.pick fileType result).mediaFile ≠ [] → (m.pick fileType result).thumbnailRequest ≠ [] := by
  cases result with
  | dismissed => exact h
  | nullableFiles files => exact h
  | files image =>
    intro himage hnone
    exact himage (List.map_eq_nil_iff.mp (List.append_eq_nil_iff.mp hnone).2)

end Pick

end PickedMedia

/-- `first` of a list in a synchronous expression. -/
def Dart.first {α : Type} : List α → Except Exc α
  | [] => .error .noElement
  | a :: _ => .ok a

namespace PostEditScreen

/-- What the screen keeps: its text, whether it can be saved, and the picked media. -/
structure State where
  text : String
  isPostButtonEnabled : Bool
  media : PickedMedia
  deriving DecidableEq, Repr

/-- The screen as it opens for a post. -/
def State.initial (post : Post) : State := ⟨post.message, true, .none⟩

/-- What happens on the screen: the text changes, media are picked, or an edit was saved. -/
inductive Event where
  | edit (text : String)
  | pick (fileType : FileType) (result : DialogResult)
  | saved
  deriving DecidableEq, Repr

/-- The text with the listener of its controller. -/
def State.setText (s : State) (text : String) : State :=
  { s with text := text, isPostButtonEnabled := !text.isEmpty }

/-- The handler of an event. -/
def State.step (s : State) : Event → State
  | .edit text => s.setText text
  | .pick fileType result => { s with media := s.media.pick fileType result }
  | .saved => s.setText ""

/-- The screen after these events. -/
def after (post : Post) (events : List Event) : State := events.foldl State.step (.initial post)

/-- A call of the notifier with its arguments. -/
inductive SaveCall where
  | editImagePost (userId : UserId) (postId : PostId) (message : String) (files : List File)
      (fileType : FileType) (originalFileStorageId thumbnailStorageId : List String)
  | editPost (userId : UserId) (postId : PostId) (message : String) (file : File)
      (fileType : FileType) (originalFileStorageId thumbnailStorageId : String)
  deriving DecidableEq, Repr

/-- The kind that both calls are given. -/
def State.fileType (s : State) : FileType :=
  match s.media.thumbnailRequest with
  | [] => .image
  | request :: _ => request.fileType

/-- The handler of the save button up to its call: the arguments are evaluated in their order. -/
def State.save (post : Post) (s : State) : Except Exc SaveCall :=
  if s.media.thumbnailRequest ≠ [] then
    .ok (.editImagePost post.userId post.postId (Dart.trim s.text) s.media.mediaFile s.fileType
      post.originalFileStorageId post.thumbnailStorageId)
  else do
    let file ← Dart.first s.media.mediaFile
    let originalFileStorageId ← Dart.first post.originalFileStorageId
    let thumbnailStorageId ← Dart.first post.thumbnailStorageId
    return .editPost post.userId post.postId (Dart.trim s.text) file s.fileType
      originalFileStorageId thumbnailStorageId

/-- Pressing the save button, which does nothing while it is disabled. -/
def State.press (post : Post) (s : State) : Option (Except Exc SaveCall) :=
  if s.isPostButtonEnabled then some (s.save post) else none

/-- Saving reaches the notifier with the text: with the picked media if there are any, and with
the text alone otherwise. -/
def State.SavesProperly (post : Post) (s : State) : Prop :=
  if s.media.mediaFile = [] then
    ∃ file fileType originalFileStorageId thumbnailStorageId,
      s.press post = some (.ok (.editPost post.userId post.postId (Dart.trim s.text) file fileType
        originalFileStorageId thumbnailStorageId))
  else
    ∃ fileType, s.press post = some (.ok (.editImagePost post.userId post.postId (Dart.trim s.text)
      s.media.mediaFile fileType post.originalFileStorageId post.thumbnailStorageId))

/-- In every state that the screen reaches, picked files have previews. -/
theorem thumbnailRequest_ne_nil (post : Post) (events : List Event) :
    (after post events).media.mediaFile ≠ [] →
      (after post events).media.thumbnailRequest ≠ [] := by
  have halways : Always State.step (.initial post)
      (fun s => s.media.mediaFile ≠ [] → s.media.thumbnailRequest ≠ []) events := by
    refine always_of_step (absurd rfl) (fun s e hs => ?_) events
    cases e with
    | edit text => exact hs
    | pick fileType result => exact PickedMedia.thumbnailRequest_pick hs
    | saved => exact hs
  exact halways.last

/-- Pressing the enabled save button reaches the notifier exactly when media are picked. -/
theorem savesProperly_iff {post : Post} {events : List Event}
    (henabled : (after post events).isPostButtonEnabled = true) :
    (after post events).SavesProperly post ↔ (after post events).media.mediaFile ≠ [] := by
  have hpreviews := thumbnailRequest_ne_nil post events
  generalize after post events = s at henabled hpreviews
  unfold State.SavesProperly State.press
  rw [if_pos henabled]
  by_cases hmedia : s.media.mediaFile = []
  · rw [if_pos hmedia]
    refine iff_of_false ?_ (not_not_intro hmedia)
    rintro ⟨file, fileType, originalFileStorageId, thumbnailStorageId, hsave⟩
    unfold State.save at hsave
    split at hsave
    · cases hsave
    · rw [hmedia] at hsave
      cases hsave
  · rw [if_neg hmedia]
    refine iff_of_true ⟨s.fileType, ?_⟩ hmedia
    rw [State.save, if_pos (hpreviews hmedia)]

/-- A picked picture is saved. -/
theorem savesProperly_iff_picture :
    (after uploadedPicture [.pick .image (.files [⟨"a.jpg"⟩])]).SavesProperly uploadedPicture :=
  (savesProperly_iff (by decide)).mpr (by decide)

/-- A change of the text alone never reaches the notifier. -/
theorem not_savesProperly_of_text :
    (after uploadedPicture [.edit "hello"]).isPostButtonEnabled = true ∧
      ¬ (after uploadedPicture [.edit "hello"]).SavesProperly uploadedPicture := by
  refine ⟨by decide, ?_⟩
  rintro ⟨file, fileType, originalFileStorageId, thumbnailStorageId, hsave⟩
  cases hsave

end PostEditScreen

end TekkGram
