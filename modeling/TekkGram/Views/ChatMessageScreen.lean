import TekkGram.Views.PostEditScreen

/-!
# ChatMessageScreen and the previews of both screens

The chat screen picks pictures as the edit screen does, and clears files and previews together, when
the user asks for it and after a message was sent. On both screens the previews are those of the
files to be sent until media are picked a second time.
-/

namespace TekkGram

open Interaction

namespace ChatMessageScreen

/-- What the screen keeps: its text, whether it can be sent, and the picked media. -/
structure State where
  text : String
  hasText : Bool
  media : PickedMedia
  deriving DecidableEq, Repr

/-- The screen as it opens. -/
def State.initial : State := ⟨"", false, .none⟩

/-- What happens on the screen: the text changes, pictures are picked, the previews are closed, a
message is submitted by keyboard or button, or a submission ends. -/
inductive Event where
  | edit (text : String)
  | pick (result : DialogResult)
  | close
  | submit
  | ended (isSent : Bool)
  deriving DecidableEq, Repr

/-- The handler of an event; a submission changes the screen only when it ends. -/
def State.step (s : State) : Event → State
  | .edit text => { s with text := text, hasText := !text.isEmpty }
  | .pick result => { s with media := s.media.pick .image result }
  | .close => { s with media := s.media.clear }
  | .submit => s
  | .ended isSent =>
    if isSent then { text := "", hasText := false, media := s.media.clear } else s

/-- The screen after these events. -/
def after (events : List Event) : State := events.foldl State.step .initial

/-- A pick on the chat screen finds no preview. -/
def FirstPick (s : State) : Event → Prop
  | .pick result => s.media.FirstPick result
  | _ => True

/-- An event keeps the previews those of the picked files exactly when it is no second pick. -/
theorem shown_step_iff {s : State} (h : s.media.Shown) (e : Event) :
    (s.step e).media.Shown ↔ FirstPick s e := by
  cases e with
  | edit text => exact iff_of_true h trivial
  | pick result => exact PickedMedia.shown_pick_iff h
  | close => exact iff_of_true PickedMedia.shown_clear trivial
  | submit => exact iff_of_true h trivial
  | ended isSent =>
    refine iff_of_true ?_ trivial
    cases isSent with
    | false => exact h
    | true => exact PickedMedia.shown_clear

end ChatMessageScreen

namespace PostEditScreen

/-- A pick on the edit screen finds no preview. -/
def FirstPick (s : State) : Event → Prop
  | .pick _ result => s.media.FirstPick result
  | _ => True

/-- The previews are those of the picked files, and saving the media passes their kind. -/
structure State.Previews (post : Post) (s : State) : Prop where
  shown : s.media.Shown
  fileType : ∀ userId postId message files fileType originalFileStorageId thumbnailStorageId,
    s.press post = some (.ok (.editImagePost userId postId message files fileType
      originalFileStorageId thumbnailStorageId)) → files = s.media.mediaFile ∧
        fileType = s.media.kind

/-- Only previews make the save button edit the media, with the picked files and the kind of the
first preview. -/
theorem State.save_editImagePost {post : Post} {s : State} {userId : UserId} {postId : PostId}
    {message : String} {files : List File} {fileType : FileType}
    {originalFileStorageId thumbnailStorageId : List String}
    (h : s.save post = .ok (.editImagePost userId postId message files fileType
      originalFileStorageId thumbnailStorageId)) :
    s.media.thumbnailRequest ≠ [] ∧ files = s.media.mediaFile ∧ fileType = s.fileType := by
  unfold State.save at h
  split at h
  · rename_i hpreviews
    cases h
    exact ⟨hpreviews, rfl, rfl⟩
  · cases hfile : Dart.first s.media.mediaFile <;>
      cases horiginal : Dart.first post.originalFileStorageId <;>
        cases hthumbnail : Dart.first post.thumbnailStorageId <;>
          rw [hfile, horiginal, hthumbnail] at h <;> cases h

/-- Where the previews are those of the picked files, saving passes the files and their kind. -/
theorem State.previews_of_shown {post : Post} {s : State} (h : s.media.Shown) :
    s.Previews post := by
  refine ⟨h, fun userId postId message files fileType originals thumbnails hpress => ?_⟩
  unfold State.press at hpress
  split at hpress
  · obtain ⟨hpreviews, rfl, rfl⟩ := State.save_editImagePost (Option.some.inj hpress)
    refine ⟨rfl, ?_⟩
    unfold State.fileType
    rw [h] at hpreviews ⊢
    cases hfiles : s.media.mediaFile with
    | nil =>
      rw [hfiles] at hpreviews
      exact absurd rfl hpreviews
    | cons file files => rfl
  · cases hpress

/-- An event keeps the previews those of the picked files exactly when it is no second pick. -/
theorem previews_step_iff {post : Post} {s : State} (h : s.Previews post) (e : Event) :
    (s.step e).Previews post ↔ FirstPick s e := by
  have hshown : (s.step e).Previews post ↔ (s.step e).media.Shown :=
    ⟨fun hp => hp.shown, State.previews_of_shown⟩
  rw [hshown]
  cases e with
  | edit text => exact iff_of_true h.shown trivial
  | pick fileType result => exact PickedMedia.shown_pick_iff h.shown
  | saved => exact iff_of_true h.shown trivial

end PostEditScreen

/-- On both screens the previews are those of the files to be sent, in every state on the way
through any events, exactly when media are never picked while there are previews. -/
theorem previews_always_iff (post : Post) (edits : List PostEditScreen.Event)
    (events : List ChatMessageScreen.Event) :
    (Always PostEditScreen.State.step (.initial post) (PostEditScreen.State.Previews post) edits ↔
      Throughout (fun before e => PostEditScreen.FirstPick (PostEditScreen.after post before) e)
        edits) ∧
    (Always ChatMessageScreen.State.step .initial (fun s => s.media.Shown) events ↔
      Throughout (fun before e => ChatMessageScreen.FirstPick (ChatMessageScreen.after before) e)
        events) := by
  constructor
  · exact always_iff (PostEditScreen.State.previews_of_shown PickedMedia.shown_none)
      (fun _ e h => PostEditScreen.previews_step_iff h e) edits
  · exact always_iff (P := fun s : ChatMessageScreen.State => s.media.Shown)
      PickedMedia.shown_none (fun _ e h => ChatMessageScreen.shown_step_iff h e) events

/-- After a second pick the previews of the first one are still there. -/
theorem not_previews_of_second_pick : ¬ (PostEditScreen.after uploadedPicture
    [.pick .image (.files [⟨"a.jpg"⟩]), .pick .image (.files [⟨"b.jpg"⟩])]).Previews
      uploadedPicture := by
  intro h
  exact absurd h.shown (by unfold PickedMedia.Shown; decide)

end TekkGram
