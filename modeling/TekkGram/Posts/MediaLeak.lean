import TekkGram.Posts.MediaExist

/-!
# Objects that no post lists

Creating and editing posts store new objects and write the document that lists them last. An
operation that stops in between leaves what it has stored, and an edit that replaces the media of a
post leaves the objects that the post listed before.
-/

namespace TekkGram

open Interaction Async

/-- Creating a post with media, and editing the media of a post. -/
def PostOperation.PutsMedia : PostOperation → Prop
  | .upload _ fileType _ _ _ _ => fileType ≠ .userImage
  | .uploadMultipleImageFiles _ _ _ fileType _ => fileType = .image
  | .editImagePost .. => True
  | .editPost .. => False
  | .deletePost _ => False

/-- Every object that a run has stored is listed in some document of the posts. -/
def NoLeak (past : List PostStep) (w : World) : Prop :=
  ∀ step ∈ past, ∀ ref, Returned (Puts ref) step.trace →
    ∃ (id : PostId) (d : Doc), (w.firestore .posts)[id]? = some d ∧ ref ∈ d.media

/-- The operation edits the media of this post. -/
def PostOperation.EditsMedia : PostOperation → PostId → Prop
  | .editImagePost _ postId _ _ _, id => postId = id
  | _, _ => False

/-- An operation that stored an object got its post written. -/
def Finishes (step : PostStep) : Prop :=
  (∃ ref, Returned (Puts ref) step.trace) → ∃ id, Returned (Writes .posts id) step.trace

/-- What a media edit replaces was not stored in this run, unless another post lists it too. -/
def ReplacesOthers (past : List PostStep) (step : PostStep) : Prop :=
  ∀ (id : PostId) (d : Doc), step.op.EditsMedia id → Returned (Writes .posts id) step.trace →
    (step.before.firestore .posts)[id]? = some d → ∀ ref ∈ d.media,
      (∃ earlier ∈ past, Returned (Puts ref) earlier.trace) →
      ∃ (id' : PostId) (d' : Doc), id' ≠ id ∧ (step.before.firestore .posts)[id']? = some d' ∧
        ref ∈ d'.media

section Step

variable {w w' : World} {tr : List AppEvent} {out : Except Exc Bool × Unit} {op : PostOperation}

/-- What creating or editing does to the documents: only an edited post changes, and a written
post lists what was stored. -/
structure MediaEffect (op : PostOperation) (w w' : World) (tr : List AppEvent) : Prop where
  kept : ∀ (id : PostId) (d : Doc), (w.firestore .posts)[id]? = some d →
    ¬ (op.EditsMedia id ∧ Returned (Writes .posts id) tr) → (w'.firestore .posts)[id]? = some d
  listed : (∃ id, Returned (Writes .posts id) tr) → ∃ (id : PostId) (d : Doc),
    (w'.firestore .posts)[id]? = some d ∧ ∀ ref, ref ∈ d.media ↔ Returned (Puts ref) tr

/-- A new document replaces no document. -/
theorem World.getElem?_setDoc_of_fresh {w₁ : World} {id id' : PostId} {d d' : Doc}
    (hgrows : w.Grows w₁) (hfresh : id' ∉ w₁.firestore .posts)
    (hd : (w.firestore .posts)[id]? = some d) :
    ((w₁.setDoc .posts id' d').firestore .posts)[id]? = some d := by
  have hne : id' ≠ id := by
    rintro rfl
    rw [hgrows.firestore] at hfresh
    exact hfresh (Std.ExtTreeMap.mem_iff_isSome_getElem?.mpr (by rw [hd]; rfl))
  rw [World.setDoc_firestore, Function.update_self, Collection.getElem?_insert, if_neg hne,
    hgrows.firestore]
  exact hd

theorem PostOperation.mediaEffect (hmedia : op.PutsMedia)
    (h : Runs World.step w op.program tr out w') : MediaEffect op w w' tr := by
  cases op with
  | upload file fileType message postSettings userId userData =>
    obtain ⟨hspec, hputs⟩ := wp.elim (wp_and
      (ImageUploadNotifier.upload_spec file hmedia message postSettings userId userData () w)
      (ImageUploadNotifier.upload_puts file hmedia message postSettings userId userData () w)) h
    refine ⟨fun id d hd _ => ?_, fun ⟨id, hwrote⟩ => ?_⟩
    · rcases hspec with hgrows | ⟨fileName, ratio, thumbUrl, orgUrl, settings, id', t, w₁, -,
        hgrows, -, -, hfresh, rfl⟩
      · rw [hgrows.firestore]
        exact hd
      · exact World.getElem?_setDoc_of_fresh hgrows hfresh hd
    · obtain ⟨d, hd, hlisted⟩ := hputs id hwrote
      exact ⟨id, d, hd, hlisted⟩
  | uploadMultipleImageFiles files message postSettings fileType userId =>
    obtain ⟨hspec, hputs⟩ := wp.elim (wp_and
      (ImageUploadNotifier.uploadMultipleImageFiles_spec files message postSettings fileType
        userId () w)
      (ImageUploadNotifier.uploadMultipleImageFiles_puts files message postSettings fileType
        userId () w)) h
    refine ⟨fun id d hd _ => ?_, fun ⟨id, hwrote⟩ => ?_⟩
    · rcases hspec with ⟨-, hgrows, -⟩ | ⟨l, settings, id', t, w₁, -, -, hgathered, hfresh, rfl, -⟩
      · rw [hgrows.firestore]
        exact hd
      · exact World.getElem?_setDoc_of_fresh hgathered.grows hfresh hd
    · obtain ⟨d, hd, hlisted⟩ := hputs id hwrote
      exact ⟨id, d, hd, hlisted⟩
  | editImagePost userId postId message files fileType =>
    obtain ⟨hspec, hputs⟩ := wp.elim (wp_and
      (EditPostNotifier.editImagePost_spec userId postId message files fileType () w)
      (EditPostNotifier.editImagePost_puts userId postId message files fileType () w)) h
    refine ⟨fun id d hd hnot => ?_, fun ⟨id, hwrote⟩ => ?_⟩
    · rcases hspec with ⟨-, hgrows, -⟩ | ⟨d', l, w₁, -, -, hgathered, rfl, hwrites⟩
      · rw [hgrows.firestore]
        exact hd
      · have hne : postId ≠ id := by
          rintro rfl
          exact hnot ⟨rfl, (hwrites _ _).mpr ⟨rfl, rfl⟩⟩
        rw [World.setLoading_firestore, World.setDoc_firestore, Function.update_self,
          Collection.getElem?_insert, if_neg hne, hgathered.grows.firestore]
        exact hd
    · obtain ⟨d, hd, hlisted⟩ := hputs id hwrote
      exact ⟨id, d, hd, hlisted⟩
  | editPost postId message => exact hmedia.elim
  | deletePost post => exact hmedia.elim

theorem PostOperation.EditsMedia.unique {id id' : PostId} (h : op.EditsMedia id)
    (h' : op.EditsMedia id') : id' = id := by
  cases op with
  | editImagePost userId postId message files fileType => exact h'.symm.trans h
  | _ => exact h.elim

/-- An operation that meets both conditions leaves nothing unlisted. -/
theorem NoLeak.step {past : List PostStep} (hi : NoLeak past w)
    (hfinishes : Finishes ⟨w, op, tr, out⟩) (hreplaces : ReplacesOthers past ⟨w, op, tr, out⟩)
    (h : MediaEffect op w w' tr) : NoLeak (past ++ [⟨w, op, tr, out⟩]) w' := by
  intro step hstep ref hput
  rcases List.mem_append.mp hstep with hearlier | hnow
  · obtain ⟨id, d, hd, href⟩ := hi step hearlier ref hput
    by_cases hedited : op.EditsMedia id ∧ Returned (Writes .posts id) tr
    · -- the post that listed the object is replaced, and another one lists it
      obtain ⟨hedits, hwrote⟩ := hedited
      obtain ⟨id', d', hne, hd', href'⟩ :=
        hreplaces id d hedits hwrote hd ref href ⟨step, hearlier, hput⟩
      exact ⟨id', d', h.kept id' d' hd' fun ⟨hedits', _⟩ => hne (hedits.unique hedits'), href'⟩
    · exact ⟨id, d, h.kept id d hd hedited, href⟩
  · rw [List.mem_singleton.mp hnow] at hput
    obtain ⟨id, d, hd, hlisted⟩ := h.listed (hfinishes ⟨ref, hput⟩)
    exact ⟨id, d, hd, (hlisted ref).mpr hput⟩

end Step

/-- In a run in which every operation that stored an object got its post written, and no media edit
replaced an object of the run, every object that was stored is listed. -/
theorem noLeak_of_session {w₀ w : World} {past : List PostStep}
    (h : Session World.step PostOperation.program (fun past step =>
      step.op.PutsMedia ∧ Finishes step ∧ ReplacesOthers past step) w₀ past w) : NoLeak past w := by
  refine h.invariant NoLeak (fun step hstep => absurd hstep List.not_mem_nil) ?_
  rintro past w op tr out w' hi ⟨hmedia, hfinishes, hreplaces⟩ hrun
  exact hi.step hfinishes hreplaces (PostOperation.mediaEffect hmedia hrun)

/-- The test for an object that some post lists. -/
def listsObject (w : World) (ref : Reference) : Bool :=
  (w.firestore .posts).toList.any fun entry => ref ∈ entry.2.media

theorem listsObject_iff {w : World} {ref : Reference} : listsObject w ref = true ↔
    ∃ (id : PostId) (d : Doc), (w.firestore .posts)[id]? = some d ∧ ref ∈ d.media := by
  simp only [listsObject, List.any_eq_true, decide_eq_true_eq, Prod.exists,
    Std.ExtTreeMap.mem_toList_iff_getElem?_eq_some]

/-- Where one picture is posted, another one is uploaded and the picture of the first post is
edited, on a working backend. -/
theorem noLeak_of_session_edit : ∃ w₀ past w,
    uploadedPicture.ReadFrom w₀ ∧
    Session World.step PostOperation.program (fun past step =>
      step.op.PutsMedia ∧ Finishes step ∧ ReplacesOthers past step) w₀ past w ∧
    (∃ step ∈ past, Returned (Puts ⟨"u", thumbnails, "26"⟩) step.trace) ∧
    (∃ step ∈ past, step.op.EditsMedia "11" ∧ Returned (Writes .posts "11") step.trace) ∧
    NoLeak past w := by
  have hexec : (uploadPicture.program.exec World.step World.working 0 World.initial).any (fun r₀ =>
      r₀.2.2.postAt "11" = some uploadedPicture &&
        (uploadPicture.program.exec World.step World.working 20 r₀.2.2).any fun r =>
          (Returned (Puts ⟨"u", thumbnails, "26"⟩) r.1 && Returned (Writes .posts "31") r.1 &&
            ((r.2.2.firestore .posts)["11"]?.all fun d =>
              d.media.all fun ref => ¬ Returned (Puts ref) r.1)) &&
          ((PostOperation.editImagePost "u" "11" "" [⟨"b.jpg"⟩] .image).program.exec World.step
            World.working 40 r.2.2).any fun r' => Returned (Writes .posts "11") r'.1) = true := by
    decide +kernel
  obtain ⟨tr₀, out₀, w₀, -, hcheck⟩ := Program.exec_any hexec
  obtain ⟨hstored, hcheck⟩ := (Bool.and_eq_true _ _).mp hcheck
  obtain ⟨tr₁, out₁, w₁, hupload, hcheck⟩ := Program.exec_any hcheck
  obtain ⟨hcheck, hcheck'⟩ := (Bool.and_eq_true _ _).mp hcheck
  obtain ⟨tr₂, out₂, w₂, hedit, hedited⟩ := Program.exec_any hcheck'
  obtain ⟨hcheck, hothers⟩ := (Bool.and_eq_true _ _).mp hcheck
  obtain ⟨hput, hwrote⟩ := (Bool.and_eq_true _ _).mp hcheck
  have hread := uploadedPicture.readFrom_of_postAt (of_decide_eq_true hstored)
  have huploaded : Session World.step PostOperation.program (fun past step =>
      step.op.PutsMedia ∧ Finishes step ∧ ReplacesOthers past step) w₀
      [⟨w₀, uploadPicture, tr₁, out₁⟩] w₁ :=
    .single hupload ⟨nofun, fun _ => ⟨"31", of_decide_eq_true hwrote⟩,
      fun _ _ hedits => hedits.elim⟩
  -- the edited post lists what was posted before the run
  have hreplaces : ReplacesOthers [⟨w₀, uploadPicture, tr₁, out₁⟩]
      ⟨w₁, .editImagePost "u" "11" "" [⟨"b.jpg"⟩] .image, tr₂, out₂⟩ := by
    rintro id d rfl - hd ref href ⟨earlier, hearlier, hputs⟩
    rw [List.mem_singleton.mp hearlier] at hputs
    have hnone := List.all_eq_true.mp (Option.all_eq_true _ _ |>.mp hothers d hd) ref href
    exact absurd hputs (of_decide_eq_true hnone)
  have hsession := huploaded.snoc hedit
    ⟨trivial, fun _ => ⟨"11", of_decide_eq_true hedited⟩, hreplaces⟩
  exact ⟨w₀, _, w₂, hread, hsession,
    ⟨_, List.mem_append_left _ (List.mem_singleton_self _), of_decide_eq_true hput⟩,
    ⟨_, List.mem_append_right _ (List.mem_singleton_self _), rfl, of_decide_eq_true hedited⟩,
    noLeak_of_session hsession⟩

/-- Editing the picture of a post leaves the thumbnail that the post listed before. -/
theorem not_noLeak_of_edit :
    ¬ ∀ past w, Session World.step PostOperation.program (fun _ step => step.op.PutsMedia)
      World.initial past w → NoLeak past w := by
  intro hall
  have hexec : (uploadPicture.program.exec World.step World.working 0 World.initial).any (fun r =>
      Returned (Puts ⟨"u", thumbnails, "6"⟩) r.1 &&
        ((PostOperation.editImagePost "u" "11" "" [⟨"b.jpg"⟩] .image).program.exec World.step
          World.working 20 r.2.2).any fun r' => r'.2.1.1 = .ok true &&
            !listsObject r'.2.2 ⟨"u", thumbnails, "6"⟩) = true := by decide +kernel
  obtain ⟨tr, out, w₁, hrun, hcheck⟩ := Program.exec_any hexec
  obtain ⟨hput, hcheck⟩ := (Bool.and_eq_true _ _).mp hcheck
  obtain ⟨tr', out', w₂, hrun', hcheck⟩ := Program.exec_any hcheck
  obtain ⟨-, hunlisted⟩ := (Bool.and_eq_true _ _).mp hcheck
  have hupload : Session World.step PostOperation.program (fun _ step => step.op.PutsMedia)
      World.initial [⟨World.initial, uploadPicture, tr, out⟩] w₁ := .single hrun nofun
  have hlisted := hall _ w₂ (hupload.snoc hrun' trivial) _ (List.mem_cons_self ..) _
    (of_decide_eq_true hput)
  rw [← listsObject_iff] at hlisted
  simp [hlisted] at hunlisted

end TekkGram
