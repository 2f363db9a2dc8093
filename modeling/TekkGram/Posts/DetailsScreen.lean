import TekkGram.Interaction.Since
import TekkGram.Posts.MediaLeak

/-!
# Deleting a post from its details screen

The screen holds the post it was opened on. Its edit button edits the stored post, and its delete
button deletes the post it holds. The objects that the last edit stored are deleted only if the held
post lists them.
-/

namespace TekkGram

open Interaction Async

/-- The last edit of a session that wrote the post has stored this object. -/
def LastStored (postId : PostId) (ref : Reference) : List PostStep → Prop :=
  Since (fun _ step => Returned (Writes .posts postId) step.trace ∧ Returned (Puts ref) step.trace)
    fun step => ¬ Returned (Writes .posts postId) step.trace

/-- The last edit that wrote the post has stored an object that the held post does not list. -/
def EditedAway (post : Post) (past : List PostStep) : Prop :=
  ∃ ref, ref ∉ post.media ∧ LastStored post.postId ref past

/-- What the document of a post listed in the first world does not exist in the second. -/
def ListedMediaGone (postId : PostId) (w w' : World) : Prop :=
  ∀ d : Doc, (w.firestore .posts)[postId]? = some d → ∀ ref ∈ d.media, w'.storage ref = none

theorem Doc.media_of_ofJson {id : PostId} {d : Doc} {p : Post} (h : Post.ofJson id d = some p) :
    d.media = p.media := by
  have hreads := Post.ofJson_eq_some_iff.mp h
  simp [Doc.media, Post.media, hreads.userId, hreads.thumbnailStorageId,
    hreads.originalFileStorageId, hreads.fileType]

theorem lastStored_snoc {postId : PostId} {ref : Reference} {past : List PostStep}
    {step : PostStep} : LastStored postId ref (past ++ [step]) ↔
      (Returned (Writes .posts postId) step.trace ∧ Returned (Puts ref) step.trace) ∨
        (LastStored postId ref past ∧ ¬ Returned (Writes .posts postId) step.trace) := since_snoc

section Edit

variable {w w' : World} {tr : List AppEvent} {out : Except Exc Bool × Unit} {userId : UserId}
  {postId : PostId} {message : String} {files : List File} {fileType : FileType} {d : Doc}

/-- A media edit keeps the document of its post, or replaces the media that it lists by the
objects that it has stored. -/
theorem editImagePost_document (hd : (w.firestore .posts)[postId]? = some d)
    (h : Runs World.step w
      (EditPostNotifier.editImagePost userId postId message files fileType ()) tr out w') :
    w.KeepsMedia w' ∧ ∃ d' : Doc, (w'.firestore .posts)[postId]? = some d' ∧
      ((¬ Returned (Writes .posts postId) tr ∧ d' = d) ∨
        (Returned (Writes .posts postId) tr ∧ (∀ ref, ref ∈ d'.media ↔ Returned (Puts ref) tr) ∧
          ∀ ref ∈ d'.media, FreshObject w w' ref)) := by
  obtain ⟨hspec, hputs⟩ := wp.elim (wp_and
    (EditPostNotifier.editImagePost_spec userId postId message files fileType () w)
    (EditPostNotifier.editImagePost_puts userId postId message files fileType () w)) h
  rcases hspec with ⟨-, hgrows, hwrites⟩ | ⟨d₀, lists, w₁, -, -, hgathered, rfl, hwrites⟩
  · refine ⟨hgrows.keepsMedia, d, ?_, .inl ⟨hwrites .posts postId, rfl⟩⟩
    rw [hgrows.firestore]
    exact hd
  · have hwrote := (hwrites .posts postId).mpr ⟨rfl, rfl⟩
    obtain ⟨d₁, hd', hlisted⟩ := hputs postId hwrote
    refine ⟨⟨hgathered.grows.uuids, hgathered.grows.kept⟩, _, hd', .inr ⟨hwrote, hlisted, ?_⟩⟩
    -- the document that is read back is the one that was written
    intro ref href
    rw [World.setLoading_firestore, World.setDoc_firestore, Function.update_self,
      Collection.getElem?_insert_self] at hd'
    rw [← Option.some.inj hd', EditPostNotifier.merge_editedFields_media] at href
    have hfresh : FreshObject w w₁ ref := by
      rcases List.mem_append.mp href with href | href
      · obtain ⟨id, hid, rfl⟩ := List.mem_map.mp href
        exact hgathered.thumbnailIds id hid
      · obtain ⟨id, hid, rfl⟩ := List.mem_map.mp href
        exact hgathered.originalIds id hid
    exact ⟨hfresh.fresh, hfresh.drawn, hfresh.exist⟩

end Edit

/-- What holds while the screen is open: the document of the post lists media of the held post and
what the last edit stored, and the latter is listed and exists. -/
structure ScreenInvariant (post : Post) (past : List PostStep) (w : World) : Prop where
  document : ∃ d : Doc, (w.firestore .posts)[post.postId]? = some d ∧
    (∀ ref ∈ d.media, ref ∈ post.media ∨ LastStored post.postId ref past) ∧
    ∀ ref, LastStored post.postId ref past → ref ∈ d.media
  stored : ∀ ref, LastStored post.postId ref past →
    ref.name ∈ w.uuids ∧ (w.storage ref).isSome

theorem ScreenInvariant.init {post : Post} {w : World} (hread : post.ReadFrom w) :
    ScreenInvariant post [] w := by
  obtain ⟨d, hd, hpost⟩ := hread
  have hnone : ∀ ref, ¬ LastStored post.postId ref [] := fun ref => not_since_nil
  refine ⟨⟨d, hd, fun ref href => .inl ?_, fun ref hlast => absurd hlast (hnone ref)⟩,
    fun ref hlast => absurd hlast (hnone ref)⟩
  rw [← Doc.media_of_ofJson hpost]
  exact href

/-- An edit keeps the invariant. -/
theorem ScreenInvariant.edit {post : Post} {past : List PostStep} {w w' : World}
    {op : PostOperation} {tr : List AppEvent} {out : Except Exc Bool × Unit}
    (hi : ScreenInvariant post past w) (hedits : op.EditsMedia post.postId)
    (h : Runs World.step w op.program tr out w') :
    ScreenInvariant post (past ++ [⟨w, op, tr, out⟩]) w' := by
  have hsnoc : ∀ ref, LastStored post.postId ref (past ++ [⟨w, op, tr, out⟩]) ↔
      (Returned (Writes .posts post.postId) tr ∧ Returned (Puts ref) tr) ∨
        (LastStored post.postId ref past ∧ ¬ Returned (Writes .posts post.postId) tr) :=
    fun ref => lastStored_snoc
  cases op with
  | editImagePost userId postId message files fileType =>
    obtain rfl : postId = post.postId := hedits
    obtain ⟨d, hd, hlisted, hlast⟩ := hi.document
    obtain ⟨hkeeps, d', hd', ⟨hnot, rfl⟩ | ⟨hwrote, hputs, hfresh⟩⟩ := editImagePost_document hd h
    · simp only [hnot, false_and, false_or, not_false_eq_true, and_true] at hsnoc
      refine ⟨⟨d', hd', fun ref href => ?_, fun ref href => ?_⟩, fun ref href => ?_⟩
      · rw [hsnoc]
        exact hlisted ref href
      · exact hlast ref ((hsnoc ref).mp href)
      · obtain ⟨hdrawn, hexist⟩ := hi.stored ref ((hsnoc ref).mp href)
        refine ⟨hkeeps.uuids hdrawn, ?_⟩
        rw [hkeeps.kept ref hdrawn]
        exact hexist
    · simp only [hwrote, true_and, not_true_eq_false, and_false, or_false, ← hputs] at hsnoc
      refine ⟨⟨d', hd', fun ref href => .inr ((hsnoc ref).mpr href), fun ref href => ?_⟩,
        fun ref href => ?_⟩
      · exact (hsnoc ref).mp href
      · have hobject := hfresh ref ((hsnoc ref).mp href)
        exact ⟨hobject.drawn, hobject.exist⟩
  | _ => exact hedits.elim

/-- After any edits from the screen, a deletion that returns `true` has removed everything that the
stored post listed exactly when the held post lists all that the last edit stored. -/
theorem listedMediaGone_iff_of_session {post : Post} {w₀ w w' : World} {past : List PostStep}
    {tr : List AppEvent} {s : Unit} (hread : post.ReadFrom w₀)
    (hedits : Session World.step PostOperation.program
      (fun _ step => step.op.EditsMedia post.postId) w₀ past w)
    (hdelete : Runs World.step w (DeletePostStateNotifier.deletePost post ()) tr (.ok true, s) w') :
    ListedMediaGone post.postId w w' ↔ ¬ EditedAway post past := by
  have hi : ScreenInvariant post past w := hedits.invariant (ScreenInvariant post) (.init hread)
    fun past w op tr out w' hi hguard hrun => hi.edit hguard hrun
  obtain ⟨d, hd, hlisted, hlast⟩ := hi.document
  have hstorage : w'.storage = (w.removeAll post.media).storage := by
    obtain ⟨removed, rest, hdeleted, hstorage, -, ⟨-, rfl, -⟩ | ⟨hout, -⟩⟩ :=
      wp.elim (DeletePostStateNotifier.deletePost_spec post () w) hdelete
    · rw [hstorage, hdeleted.split, List.append_nil]
    · cases hout
  constructor
  · rintro hgone ⟨ref, hunheld, hstored⟩
    have hnone := hgone d hd ref (hlast ref hstored)
    rw [hstorage, World.removeAll_storage, if_neg hunheld] at hnone
    have hexist := (hi.stored ref hstored).2
    rw [hnone] at hexist
    cases hexist
  · intro hheld d' hd' ref href
    obtain rfl : d = d' := Option.some.inj (hd.symm.trans hd')
    have hmem : ref ∈ post.media := by
      rcases hlisted ref href with hmem | hstored
      · exact hmem
      · by_contra hunheld
        exact hheld ⟨ref, hunheld, hstored⟩
    rw [hstorage, World.removeAll_storage, if_pos hmem]

/-- When the edit could not be written, the deletion removes what the post lists. -/
theorem listedMediaGone_iff_of_session_failed_edit : ∃ w₀ past w w',
    uploadedPicture.ReadFrom w₀ ∧ past ≠ [] ∧
    Session World.step PostOperation.program (fun _ step => step.op.EditsMedia "11") w₀ past w ∧
    ListedMediaGone "11" w w' := by
  have hexec : (uploadPicture.program.exec World.step World.working 0 World.initial).any (fun r =>
      r.2.2.postAt "11" = some uploadedPicture &&
        ((PostOperation.editImagePost "u" "11" "" [⟨"b.jpg"⟩] .image).program.exec World.step
          (World.failingAt 32) 20 r.2.2).any fun r' =>
            decide (¬ Returned (Writes .posts "11") r'.1) &&
            ((PostOperation.deletePost uploadedPicture).program.exec World.step World.working 40
              r'.2.2).any fun r'' => r''.2.1.1 = .ok true) = true := by decide +kernel
  obtain ⟨tr, out, w₁, -, hcheck⟩ := Program.exec_any hexec
  obtain ⟨hstored, hcheck⟩ := (Bool.and_eq_true _ _).mp hcheck
  obtain ⟨tr', out', w₂, hedit, hcheck⟩ := Program.exec_any hcheck
  obtain ⟨hnot, hcheck⟩ := (Bool.and_eq_true _ _).mp hcheck
  obtain ⟨tr'', ⟨out'', s⟩, w₃, hdelete, hout⟩ := Program.exec_any hcheck
  obtain rfl : out'' = .ok true := of_decide_eq_true hout
  have hread := uploadedPicture.readFrom_of_postAt (of_decide_eq_true hstored)
  have hsession : Session World.step PostOperation.program
      (fun _ step => step.op.EditsMedia uploadedPicture.postId) w₁ [⟨w₁, _, tr', out'⟩] w₂ :=
    .single hedit rfl
  refine ⟨w₁, _, w₂, w₃, hread, List.cons_ne_nil _ _, hsession, ?_⟩
  refine (listedMediaGone_iff_of_session hread hsession hdelete).mpr ?_
  rintro ⟨ref, -, hlast⟩
  rw [← List.nil_append [_], lastStored_snoc] at hlast
  rcases hlast with ⟨hwrote, -⟩ | ⟨hnone, -⟩
  · exact of_decide_eq_true hnot hwrote
  · exact not_since_nil hnone

/-- After an edit of the picture, the deletion leaves the new one in storage. -/
theorem not_listedMediaGone_of_edit :
    ¬ ∀ post w₀ past w tr s w', post.ReadFrom w₀ →
      Session World.step PostOperation.program (fun _ step => step.op.EditsMedia post.postId)
        w₀ past w →
      Runs World.step w (DeletePostStateNotifier.deletePost post ()) tr (.ok true, s) w' →
      ListedMediaGone post.postId w w' := by
  intro hall
  have hexec : (uploadPicture.program.exec World.step World.working 0 World.initial).any (fun r =>
      r.2.2.postAt "11" = some uploadedPicture &&
        ((PostOperation.editImagePost "u" "11" "" [⟨"b.jpg"⟩] .image).program.exec World.step
          World.working 20 r.2.2).any fun r' =>
            ((r'.2.2.firestore .posts)["11"]?.any fun d => ⟨"u", thumbnails, "27"⟩ ∈ d.media) &&
            ((PostOperation.deletePost uploadedPicture).program.exec World.step World.working 40
              r'.2.2).any fun r'' => r''.2.1.1 = .ok true &&
                (r''.2.2.storage ⟨"u", thumbnails, "27"⟩).isSome) = true := by decide +kernel
  obtain ⟨tr, out, w₁, -, hcheck⟩ := Program.exec_any hexec
  obtain ⟨hstored, hcheck⟩ := (Bool.and_eq_true _ _).mp hcheck
  obtain ⟨tr', out', w₂, hedit, hcheck⟩ := Program.exec_any hcheck
  obtain ⟨hlisted, hcheck⟩ := (Bool.and_eq_true _ _).mp hcheck
  obtain ⟨tr'', ⟨out'', s⟩, w₃, hdelete, hcheck⟩ := Program.exec_any hcheck
  obtain ⟨hout, hexist⟩ := (Bool.and_eq_true _ _).mp hcheck
  obtain rfl : out'' = .ok true := of_decide_eq_true hout
  obtain ⟨d, hd, href⟩ := (Option.any_eq_true _ _).mp hlisted
  have hread := uploadedPicture.readFrom_of_postAt (of_decide_eq_true hstored)
  have hsession : Session World.step PostOperation.program
      (fun _ step => step.op.EditsMedia uploadedPicture.postId) w₁ [⟨w₁, _, tr', out'⟩] w₂ :=
    .single hedit rfl
  have hnone := hall _ _ _ _ _ _ _ hread hsession hdelete d hd _ (of_decide_eq_true href)
  rw [hnone] at hexist
  cases hexist

end TekkGram
