import TekkGram.Posts.DeleteRetry

/-!
# Deleting a post removes exactly the post

On a backend where every call works, the deletion of a post whose media exist removes the post's
document, its comments and likes and the media that it lists, and changes nothing else but its own
loading flag.
-/

namespace TekkGram

open Interaction Async DeletePostStateNotifier

/-- The second world is the first one without a post. -/
structure Post.RemovedFrom (post : Post) (w w' : World) : Prop where
  posts : ∀ id, (w'.firestore .posts)[id]? =
    if id = post.postId then none else (w.firestore .posts)[id]?
  ofPost : ∀ path, path = .comments ∨ path = .likes → ∀ (id : String) (d : Doc),
    (w'.firestore path)[id]? = some d ↔
      (w.firestore path)[id]? = some d ∧ d.field FirebaseFieldName.postId ≠ .string post.postId
  firestore : ∀ path, path ≠ .posts → path ≠ .comments → path ≠ .likes →
    w'.firestore path = w.firestore path
  storage : ∀ ref, w'.storage ref = if ref ∈ post.media then none else w.storage ref
  urls : w'.urls = w.urls
  uuids : w'.uuids = w.uuids
  loading : w'.loading = Function.update w.loading .deletePost false
  authState : w'.authState = w.authState
  currentUser : w'.currentUser = w.currentUser

/-- A deletion of all the media of a post removes exactly the post. -/
theorem Post.removedFrom_afterDeletion (post : Post) (w : World) :
    post.RemovedFrom w (afterDeletion w post post.media) where
  posts id := by
    rw [afterDeletion, World.setLoading_firestore, eraseDocuments_posts]
    rfl
  ofPost path hpath id d := by
    rw [afterDeletion, World.setLoading_firestore, eraseDocuments_getElem? hpath]
    rfl
  firestore path hposts hcomments hlikes := by
    rw [afterDeletion, World.setLoading_firestore,
      eraseDocuments_firestore_of_ne hposts hcomments hlikes]
    rfl
  storage _ := rfl
  urls := rfl
  uuids := rfl
  loading := Function.update_idem ..
  authState := rfl
  currentUser := rfl

/-- On a working backend the deletion of a post whose media exist and are pairwise different ends,
returns `true` and removes exactly the post. -/
theorem deletePost_removes {post : Post} {w : World} (hnodup : post.media.Nodup)
    (hexist : ∀ ref ∈ post.media, (w.storage ref).isSome) :
    (∃ tr out w', Runs World.workingStep w (deletePost post ()) tr out w') ∧
      ∀ tr out w', Runs World.workingStep w (deletePost post ()) tr out w' →
        out.1 = .ok true ∧ post.RemovedFrom w w' := by
  obtain ⟨hends, hall⟩ := deletionSucceeds_iff.mpr ⟨hnodup, hexist⟩
  refine ⟨hends, fun tr out w' hrun => ?_⟩
  obtain ⟨hout, -⟩ := hall tr out w' hrun
  refine ⟨hout, ?_⟩
  obtain ⟨removed, rest, hdeleted, -, -, ⟨-, rfl, -, rfl⟩ | ⟨hfalse, -⟩⟩ :=
    wp.elim (deletePost_spec post () w) (World.runs_of_workingStep hrun).1
  · have hmedia : removed = post.media := by rw [hdeleted.split, List.append_nil]
    rw [hmedia]
    exact post.removedFrom_afterDeletion w
  · cases hout.symm.trans hfalse

/-- An uploaded picture is deleted. -/
theorem deletePost_removes_picture : ∃ w, uploadedPicture.ReadFrom w ∧
    ∀ tr out w', Runs World.workingStep w (deletePost uploadedPicture ()) tr out w' →
      out.1 = .ok true ∧ uploadedPicture.RemovedFrom w w' := by
  have hexec : (uploadPicture.program.exec World.step World.working 0 World.initial).any
      (fun r => r.2.2.postAt "11" = some uploadedPicture &&
        uploadedPicture.media.all fun ref => (r.2.2.storage ref).isSome) = true := by
    decide +kernel
  obtain ⟨tr₀, out₀, w₀, -, hcheck⟩ := Program.exec_any hexec
  obtain ⟨hstored, hmedia⟩ := (Bool.and_eq_true _ _).mp hcheck
  exact ⟨w₀, uploadedPicture.readFrom_of_postAt (of_decide_eq_true hstored),
    (deletePost_removes (by decide) (List.all_eq_true.mp hmedia)).2⟩

end TekkGram
