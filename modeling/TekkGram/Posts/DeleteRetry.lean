import TekkGram.Posts.MediaExist

/-!
# Retrying a deletion

The documents of a post are deleted by query, so deleting them again finds nothing and
succeeds. Its media are deleted by name, and deleting an object that is already gone
fails. A retry therefore succeeds exactly when the first attempt deleted no object.
-/

namespace TekkGram

open Interaction Async

/-- Nothing is left of a post. -/
structure Post.Gone (post : Post) (w : World) : Prop extends
    DeletePostStateNotifier.DocumentsGone w post where
  media : ∀ ref ∈ post.media, w.storage ref = none

/-- Deleting a post with every backend call working ends, returns `true` and leaves nothing
of the post. -/
def DeletionSucceeds (post : Post) (w : World) : Prop :=
  (∃ tr out w', Runs World.workingStep w (DeletePostStateNotifier.deletePost post ()) tr out w') ∧
    ∀ tr out w', Runs World.workingStep w (DeletePostStateNotifier.deletePost post ()) tr out w' →
      out.1 = .ok true ∧ post.Gone w'

namespace DeletePostStateNotifier

/-- A deletion neither draws a name nor adds a document. -/
theorem deletePost_calls (post : Post) : (deletePost post).Calls fun c =>
    c ≠ .uuidV4 ∧ ∀ path payload, c ≠ .add path payload := by
  have hall : ∀ path, (deleteAllDocuments post.postId path).Calls fun c =>
      c ≠ .uuidV4 ∧ ∀ path payload, c ≠ .add path payload := fun path =>
    calls_bind (calls_call ⟨nofun, nofun⟩) fun _ =>
      calls_bind (calls_call ⟨nofun, nofun⟩) fun _ => calls_pure
  have hdocument : (deleteDocument post).Calls fun c =>
      c ≠ .uuidV4 ∧ ∀ path payload, c ≠ .add path payload :=
    calls_bind (calls_call ⟨nofun, nofun⟩) fun _ =>
      calls_bind (calls_forEach fun _ _ => calls_call ⟨nofun, nofun⟩) fun _ => calls_pure
  have hmedia : (deleteMedia post).Calls fun c =>
      c ≠ .uuidV4 ∧ ∀ path payload, c ≠ .add path payload :=
    calls_bind (calls_forEach fun _ _ => calls_call ⟨nofun, nofun⟩) fun _ =>
      calls_forEach fun _ _ => calls_call ⟨nofun, nofun⟩
  refine calls_tryFinally (calls_tryCatch ?_ fun _ => calls_pure) (calls_call ⟨nofun, nofun⟩)
  refine calls_bind (calls_call ⟨nofun, nofun⟩) fun _ => calls_bind hmedia fun _ => ?_
  exact calls_bind (hall _) fun _ => calls_bind (hall _) fun _ => hdocument

/-- A deletion on a working backend always ends. -/
theorem deletePost_ends (post : Post) (w : World) :
    ∃ tr out w', Runs World.workingStep w (deletePost post ()) tr out w' := by
  obtain ⟨tr, out, w', he⟩ : ∃ tr out w',
      (deletePost post ()).exec World.workingStep World.working 0 w = some (tr, out, w') :=
    Program.exec_total (fun n w c hc => w.workingStep_working n c hc.1 hc.2)
      (deletePost_calls post ()) 0 w
  exact ⟨tr, out, w', Program.exec_runs he⟩

/-- What a deletion does when every backend call works: it deletes everything, or stops at a
media object that does not exist or that it has itself deleted before. -/
theorem deletePost_working {post : Post} {w w' : World} {tr : List AppEvent}
    {out : Except Exc Bool × Unit} (h : Runs World.workingStep w (deletePost post ()) tr out w') :
    (out.1 = .ok true ∧ post.Gone w' ∧ post.media.Nodup ∧
        ∀ ref ∈ post.media, (w.storage ref).isSome) ∨
      (out.1 = .ok false ∧
        ¬ (post.media.Nodup ∧ ∀ ref ∈ post.media, (w.storage ref).isSome)) := by
  obtain ⟨hrun, hworking⟩ := World.runs_of_workingStep h
  obtain ⟨removed, rest, hdeleted, hstorage, -, ⟨hout, hrest, -, hexact⟩ |
    ⟨hout, -, -, hreason⟩⟩ := wp.elim (deletePost_spec post () w) hrun
  · have hmedia : post.media = removed := by rw [hdeleted.split, hrest, List.append_nil]
    obtain ⟨hgone, -⟩ := documents_of_afterDeletion hexact
    refine .inl ⟨hout, ⟨hgone, fun ref href => ?_⟩, ?_, fun ref href => ?_⟩
    · rw [hstorage, World.removeAll_storage, if_pos (hmedia ▸ href)]
    · rw [hmedia]
      exact hdeleted.nodup
    · exact hdeleted.existed ref (hmedia ▸ href)
  · refine .inr ⟨hout, fun ⟨hnodup, hexist⟩ => ?_⟩
    obtain ⟨ref, rest', rfl, hmissing⟩ := hreason.resolve_left hworking
    rw [hdeleted.split] at hnodup hexist
    have hnew : ref ∉ removed := fun hmem =>
      (List.nodup_append.mp hnodup).2.2 ref hmem ref (List.mem_cons_self ..) rfl
    have hstored := hexist ref (List.mem_append_right _ (List.mem_cons_self ..))
    rw [hstorage, World.removeAll_storage, if_neg hnew] at hmissing
    rw [hmissing] at hstored
    cases hstored

end DeletePostStateNotifier

open DeletePostStateNotifier

/-- Deleting a post succeeds on a working backend exactly when its media exist and are pairwise
different. -/
theorem deletionSucceeds_iff {post : Post} {w : World} :
    DeletionSucceeds post w ↔ post.media.Nodup ∧ ∀ ref ∈ post.media, (w.storage ref).isSome := by
  constructor
  · rintro ⟨⟨tr, out, w', hrun⟩, hall⟩
    rcases deletePost_working hrun with ⟨-, -, hnodup, hexist⟩ | ⟨hout, -⟩
    · exact ⟨hnodup, hexist⟩
    · obtain ⟨htrue, -⟩ := hall tr out w' hrun
      cases htrue.symm.trans hout
  · rintro ⟨hnodup, hexist⟩
    refine ⟨deletePost_ends post w, fun tr out w' hrun => ?_⟩
    rcases deletePost_working hrun with ⟨hout, hgone, -, -⟩ | ⟨-, hnot⟩
    · exact ⟨hout, hgone⟩
    · exact absurd ⟨hnodup, hexist⟩ hnot

/-- After a failed deletion, a retry succeeds exactly when the media of the post existed and
were pairwise different before it, and it deleted none of them. -/
theorem retry_succeeds_iff {post : Post} {w₀ w₁ : World} {tr : List AppEvent} {s : Unit}
    (h : Runs World.step w₀ (deletePost post ()) tr (.ok false, s) w₁) :
    DeletionSucceeds post w₁ ↔
      post.media.Nodup ∧ (∀ ref ∈ post.media, (w₀.storage ref).isSome) ∧
        ∀ ref, ¬ Returned (DeletedObject ref) tr := by
  obtain ⟨removed, rest, hdeleted, hstorage, -, -⟩ := wp.elim (deletePost_spec post () w₀) h
  rw [deletionSucceeds_iff]
  refine and_congr_right fun _ => ?_
  simp only [hdeleted.returned, hstorage, World.removeAll_storage]
  constructor
  · intro hexist
    have hkept : ∀ ref ∈ post.media, ref ∉ removed ∧ (w₀.storage ref).isSome := by
      intro ref href
      have hstored := hexist ref href
      by_cases hmem : ref ∈ removed
      · simp [hmem] at hstored
      · exact ⟨hmem, by simpa only [hmem, ite_false] using hstored⟩
    refine ⟨fun ref href => (hkept ref href).2, fun ref hmem => (hkept ref ?_).1 hmem⟩
    rw [hdeleted.split]
    exact List.mem_append_left _ hmem
  · rintro ⟨hexist, hnone⟩ ref href
    rw [if_neg (hnone ref)]
    exact hexist ref href

/-- The event of a run deletes no object. -/
def keepsObject : AppEvent → Bool
  | ⟨.deleteObject _, .ok _⟩ => false
  | _ => true

/-- A deletion that failed at its first object can be retried. -/
theorem retry_succeeds_iff_first_object :
    ∃ w₀ w₁ tr s, uploadedPicture.ReadFrom w₀ ∧
      Runs World.step w₀ (deletePost uploadedPicture ()) tr (.ok false, s) w₁ ∧
      DeletionSucceeds uploadedPicture w₁ := by
  have hexec : (uploadPicture.program.exec World.step World.working 0 World.initial).any
      (fun r => (r.2.2.postAt "11" = some uploadedPicture &&
        uploadedPicture.media.all fun ref => (r.2.2.storage ref).isSome) &&
        ((deletePost uploadedPicture ()).exec World.step (World.failingAt 1) 0 r.2.2).any
          fun r' => r'.2.1.1 = .ok false && r'.1.all keepsObject) = true := by decide +kernel
  obtain ⟨tr₀, out₀, w₀, -, hcheck⟩ := Program.exec_any hexec
  obtain ⟨hbefore, hcheck⟩ := (Bool.and_eq_true _ _).mp hcheck
  obtain ⟨hstored, hmedia⟩ := (Bool.and_eq_true _ _).mp hbefore
  obtain ⟨tr₁, ⟨out₁, s₁⟩, w₁, hfirst, hcheck⟩ := Program.exec_any hcheck
  obtain ⟨hfalse, hkept⟩ := (Bool.and_eq_true _ _).mp hcheck
  obtain rfl : out₁ = .ok false := of_decide_eq_true hfalse
  have hnone : ∀ ref, ¬ Returned (DeletedObject ref) tr₁ := by
    rintro ref ⟨c, a, hmem, hdeleted⟩
    have hevent := List.all_eq_true.mp hkept _ hmem
    cases c with
    | deleteObject ref' => cases hevent
    | _ => exact hdeleted
  refine ⟨w₀, w₁, tr₁, s₁, uploadedPicture.readFrom_of_postAt (of_decide_eq_true hstored), hfirst,
    (retry_succeeds_iff hfirst).mpr ⟨by decide, List.all_eq_true.mp hmedia, hnone⟩⟩

/-- A deletion that failed at its second object can never be completed. -/
theorem not_retry_succeeds_of_second_object :
    ¬ ∀ post w₀ w₁ tr s, post.ReadFrom w₀ →
      Runs World.step w₀ (deletePost post ()) tr (.ok false, s) w₁ → DeletionSucceeds post w₁ := by
  intro hall
  have hexec : (uploadPicture.program.exec World.step World.working 0 World.initial).any
      (fun r => r.2.2.postAt "11" = some uploadedPicture &&
        ((deletePost uploadedPicture ()).exec World.step (World.failingAt 2) 0 r.2.2).any
          fun r' => r'.2.1.1 = .ok false &&
            ((deletePost uploadedPicture ()).exec World.workingStep World.working 0 r'.2.2).any
              fun r'' => r''.2.1.1 = .ok false) = true := by decide +kernel
  obtain ⟨tr₀, out₀, w₀, -, hcheck⟩ := Program.exec_any hexec
  obtain ⟨hstored, hcheck⟩ := (Bool.and_eq_true _ _).mp hcheck
  obtain ⟨tr₁, ⟨out₁, s₁⟩, w₁, hfirst, hcheck⟩ := Program.exec_any hcheck
  obtain ⟨hfalse, hcheck⟩ := (Bool.and_eq_true _ _).mp hcheck
  obtain ⟨tr₂, out₂, w₂, hretry, hagain⟩ := Program.exec_any hcheck
  obtain rfl : out₁ = .ok false := of_decide_eq_true hfalse
  have hread := uploadedPicture.readFrom_of_postAt (of_decide_eq_true hstored)
  obtain ⟨-, hsucceeds⟩ := hall uploadedPicture w₀ w₁ tr₁ s₁ hread hfirst
  obtain ⟨htrue, -⟩ := hsucceeds tr₂ out₂ w₂ hretry
  cases htrue.symm.trans (of_decide_eq_true hagain)

end TekkGram
