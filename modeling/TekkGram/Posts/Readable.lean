import TekkGram.Model.Working
import TekkGram.Posts.Operation

/-!
# Every post can be shown

The views take the first thumbnail, the first file and the first aspect ratio of every post.
A run keeps all posts readable as long as every upload or edit of several files that
writes its post stored at least one of them completely. Nothing in the code checks
this: a file that cannot be decoded is skipped and the post is written all the same.
-/

namespace TekkGram

open Interaction Async

/-- `PostThumbnailView` shows the first thumbnail. -/
def PostThumbnailView.imageUrl (post : Post) : Option String := post.thumbnailUrl.head?

/-- `PostVideoView` plays the first file. -/
def PostVideoView.network (post : Post) : Option String := post.fileUrl.head?

/-- `PostVideoView` uses the first aspect ratio. -/
def PostVideoView.aspectRatio (post : Post) : Option ℚ := post.aspectRatio.head?

/-- The readers of a readable post find what they take. -/
theorem Post.Readable.readers {p : Post} (h : p.Readable) :
    (PostThumbnailView.imageUrl p).isSome ∧ (PostVideoView.network p).isSome ∧
      (PostVideoView.aspectRatio p).isSome :=
  ⟨List.isSome_head?.mpr h.thumbnailUrl, List.isSome_head?.mpr h.fileUrl,
    List.isSome_head?.mpr h.aspectRatio⟩

/-- Every stored post decodes to a readable one. -/
def EveryPostReadable (w : World) : Prop :=
  ∀ (id : PostId) (d : Doc), (w.firestore .posts)[id]? = some d →
    ∃ p, Post.ofJson id d = some p ∧ p.Readable

theorem EveryPostReadable.decodes {w : World} (h : EveryPostReadable w) : Decodes w := by
  intro id d hd
  obtain ⟨p, hp, -⟩ := h id d hd
  exact ⟨p, hp⟩

/-- An operation keeps every post readable exactly when it stored at least one file. -/
theorem PostEffect.everyPostReadable_iff {w w' : World} {storedOne : Prop}
    (h : PostEffect w w' storedOne) (hreadable : EveryPostReadable w) :
    EveryPostReadable w' ↔ storedOne := by
  have hinsert : ∀ {postId : PostId} {p : Post} {d : Doc}, Post.ofJson postId d = some p →
      w'.firestore .posts = (w.firestore .posts).insert postId d →
      (EveryPostReadable w' ↔ p.Readable) := by
    intro postId p d hdecode hposts
    constructor
    · intro hall
      obtain ⟨p', hp', hlists⟩ := hall postId d (by rw [hposts, Collection.getElem?_insert_self])
      obtain rfl : p = p' := Option.some.inj (hdecode.symm.trans hp')
      exact hlists
    · intro hp id d' hd'
      rw [hposts, Collection.getElem?_insert] at hd'
      by_cases hid : postId = id
      · rw [if_pos hid] at hd'
        obtain rfl := Option.some.inj hd'
        exact ⟨p, hid ▸ hdecode, hp⟩
      · rw [if_neg hid] at hd'
        exact hreadable id d' hd'
  cases h with
  | kept hposts _ hstored =>
    refine iff_of_true (fun id d hd => ?_) hstored
    rw [hposts] at hd
    exact hreadable id d hd
  | stored p d hdecode hposts _ _ hp => exact (hinsert hdecode hposts).trans hp
  | reworded p d₀ d message hbefore hdecode₀ hdecode hposts _ hstored =>
    obtain ⟨p', hp', hlists⟩ := hreadable p.postId d₀ hbefore
    obtain rfl : p = p' := Option.some.inj (hdecode₀.symm.trans hp')
    exact iff_of_true ((hinsert hdecode hposts).mpr
      ⟨hlists.thumbnailUrl, hlists.fileUrl, hlists.aspectRatio⟩) hstored

/-- A deletion leaves only posts that were stored before. -/
theorem deletePost_posts {post : Post} {w w' : World} {tr : List AppEvent}
    {out : Except Exc Bool × Unit}
    (h : Runs World.step w (DeletePostStateNotifier.deletePost post ()) tr out w') {id : PostId}
    {d : Doc} (hd : (w'.firestore .posts)[id]? = some d) :
    (w.firestore .posts)[id]? = some d := by
  obtain ⟨removed, rest, -, -, -, ⟨-, -, -, hexact⟩ | ⟨-, -, hposts, -⟩⟩ :=
    wp.elim (DeletePostStateNotifier.deletePost_spec post () w) h
  · obtain ⟨hgone, hother⟩ := DeletePostStateNotifier.documents_of_afterDeletion hexact
    have hid : id ≠ post.postId := by
      rintro rfl
      cases hgone.document.symm.trans hd
    rw [← hother id hid]
    exact hd
  · rw [← hposts]
    exact hd

/-- One step keeps every post readable exactly when it stored at least one file. -/
theorem everyPostReadable_step {w w' : World} {op : PostOperation} {tr : List AppEvent}
    {out : Except Exc Bool × Unit} (hposts : op.Posts) (hreadable : EveryPostReadable w)
    (hrun : Runs World.step w op.program tr out w') :
    EveryPostReadable w' ↔ op.StoredOne tr := by
  by_cases hdelete : ∃ post, op = .deletePost post
  · obtain ⟨post, rfl⟩ := hdelete
    exact iff_of_true (fun id d hd => hreadable id d (deletePost_posts hrun hd)) trivial
  · have heffect := PostOperation.effect hposts (fun post he => hdelete ⟨post, he⟩)
      hreadable.decodes hrun
    exact heffect.everyPostReadable_iff hreadable

/-- From an empty collection, every post is readable in every state of a run exactly when
each of its uploads and edits of several files that wrote a post stored at least one file. -/
theorem everyPostReadable_iff_of_session {w₀ w : World} {past : List PostStep}
    (hempty : w₀.firestore .posts = ∅)
    (h : Session World.step PostOperation.program (fun _ step => step.op.Posts) w₀ past w) :
    ((∀ step ∈ past, EveryPostReadable step.before) ∧ EveryPostReadable w) ↔
      ∀ step ∈ past, step.op.StoredOne step.trace := by
  refine h.invariant (fun past w =>
    ((∀ step ∈ past, EveryPostReadable step.before) ∧ EveryPostReadable w) ↔
      ∀ step ∈ past, step.op.StoredOne step.trace) ?_ ?_
  · refine iff_of_true ⟨by simp, fun id d hd => ?_⟩ (by simp)
    simp [hempty] at hd
  · intro past w op tr out w' hpast hposts hrun
    simp only [List.forall_mem_append, List.forall_mem_singleton]
    constructor
    · rintro ⟨⟨hbefore, hreadable⟩, hafter⟩
      exact ⟨hpast.mp ⟨hbefore, hreadable⟩,
        (everyPostReadable_step hposts hreadable hrun).mp hafter⟩
    · rintro ⟨hstored, hstep⟩
      obtain ⟨hbefore, hreadable⟩ := hpast.mpr hstored
      exact ⟨⟨hbefore, hreadable⟩, (everyPostReadable_step hposts hreadable hrun).mpr hstep⟩

/-- An upload of one picture on a working backend. -/
theorem everyPostReadable_iff_of_session_upload :
    ∃ past w d, Session World.step PostOperation.program (fun _ step => step.op.Posts)
      World.initial past w ∧ (w.firestore .posts)["11"]? = some d ∧
      ∃ p, Post.ofJson "11" d = some p ∧ p.Readable := by
  have hexec : ((PostOperation.upload ⟨"a.jpg"⟩ .image none (some []) "u" none).program.exec
      World.step World.working 0 World.initial).any
        (fun r => (r.2.2.firestore .posts)["11"]?.isSome) = true := by decide +kernel
  obtain ⟨tr, out, w, hrun, hd⟩ := Program.exec_any hexec
  obtain ⟨d, hd⟩ := Option.isSome_iff_exists.mp hd
  have hsession : Session World.step PostOperation.program (fun _ step => step.op.Posts)
      World.initial [⟨World.initial, .upload ⟨"a.jpg"⟩ .image none (some []) "u" none, tr, out⟩]
      w := .single hrun nofun
  have hreadable := ((everyPostReadable_iff_of_session rfl hsession).mpr
    (List.forall_mem_singleton.mpr trivial)).2
  exact ⟨_, w, d, hsession, hd, hreadable "11" d hd⟩

/-- Uploads of a picture or a video, uploads of at least one picture, and edits. -/
def UploadOrEdit (_past : List PostStep) (step : PostStep) : Prop :=
  match step.op with
  | .upload _ fileType _ _ _ _ => fileType ≠ .userImage
  | .uploadMultipleImageFiles files _ _ fileType _ => files ≠ [] ∧ fileType = .image
  | .deletePost _ => False
  | _ => True

/-- One undecodable file is enough for a post that no view can show. -/
theorem not_everyPostReadable_of_undecodable :
    ¬ ∀ past w, Session World.step PostOperation.program UploadOrEdit World.initial past w →
      EveryPostReadable w := by
  intro hall
  have hexec : ((PostOperation.uploadMultipleImageFiles [⟨"a.jpg"⟩] none (some []) .image
      "u").program.exec World.step World.undecodable 0 World.initial).any
        (fun r => ((r.2.2.firestore .posts)["4"]?.bind (Post.ofJson "4")).any
          fun p => p.fileUrl = []) = true := by decide +kernel
  obtain ⟨tr, out, w, hrun, hd⟩ := Program.exec_any hexec
  obtain ⟨p, hp, hempty⟩ := (Option.any_eq_true _ _).mp hd
  obtain ⟨d, hd, hp⟩ := Option.bind_eq_some_iff.mp hp
  have hsession := Session.single hrun
    (show UploadOrEdit [] ⟨World.initial, _, tr, out⟩ from ⟨List.cons_ne_nil _ _, rfl⟩)
  obtain ⟨p', hp', hreadable⟩ := hall _ w hsession "4" d hd
  obtain rfl : p = p' := Option.some.inj (hp.symm.trans hp')
  exact hreadable.fileUrl (of_decide_eq_true hempty)

end TekkGram
