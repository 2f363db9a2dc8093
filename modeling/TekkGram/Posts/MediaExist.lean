import TekkGram.Model.Working
import TekkGram.Posts.Operation

/-!
# The media of every stored post exist

Documents and objects live in two stores that no call changes together. Writers store the
media first, so a failure leaves at most objects that no post lists. `deletePost`
removes the media first, so a failure after the first object leaves a post that lists
missing media. A run without such a failure keeps all media of all stored posts.
-/

namespace TekkGram

open Interaction Async

/-- Every object that a post lists exists. -/
structure Post.MediaExist (p : Post) (w : World) : Prop where
  thumbnails : ∀ id ∈ p.thumbnailStorageId, (w.storage ⟨p.userId, thumbnails, id⟩).isSome
  originals : ∀ id ∈ p.originalFileStorageId,
    (w.storage ⟨p.userId, p.fileType.collectionName, id⟩).isSome

theorem Post.mediaExist_of_media {p : Post} {w : World}
    (h : ∀ ref ∈ p.media, (w.storage ref).isSome) : p.MediaExist w where
  thumbnails id hid :=
    h _ (List.mem_append_left _ (List.mem_map.mpr ⟨id, hid, rfl⟩))
  originals id hid :=
    h _ (List.mem_append_right _ (List.mem_map.mpr ⟨id, hid, rfl⟩))

/-- Every stored post decodes, and its media exist. -/
def EveryMediaExist (w : World) : Prop :=
  ∀ (id : PostId) (d : Doc), (w.firestore .posts)[id]? = some d →
    ∃ p, Post.ofJson id d = some p ∧ p.MediaExist w

/-- A post value that the app can have read from this world. -/
def Post.ReadFrom (p : Post) (w : World) : Prop :=
  ∃ d, (w.firestore .posts)[p.postId]? = some d ∧ Post.ofJson p.postId d = some p

/-- A post value that the app can have read in a run so far. -/
def Post.Seen (p : Post) (past : List PostStep) (w : World) : Prop :=
  p.ReadFrom w ∨ ∃ step ∈ past, p.ReadFrom step.before

theorem Post.Seen.snoc {p : Post} {past : List PostStep} {step : PostStep} {w' : World}
    (h : p.Seen (past ++ [step]) w') : p.ReadFrom w' ∨ p.Seen past step.before := by
  rcases h with h | ⟨step', hstep, h⟩
  · exact .inl h
  · rcases List.mem_append.mp hstep with hstep | hstep
    · exact .inr (.inr ⟨step', hstep, h⟩)
    · rw [List.mem_singleton.mp hstep] at h
      exact .inr (.inl h)

/-- The steps of the app: uploads of pictures and videos, edits, and deletions of a post that
was read before. -/
def FromApp (past : List PostStep) (step : PostStep) : Prop :=
  step.op.Posts ∧ ∀ post, step.op = .deletePost post → post.Seen past step.before

/-- A deletion that deleted an object completed. -/
def PostOperation.WholeDeletion (op : PostOperation) (tr : List AppEvent) : Prop :=
  match op with
  | .deletePost _ => (∃ ref, Returned (DeletedObject ref) tr) → ¬ Failed tr
  | _ => True

/-- What holds along a run: besides the media of stored posts being there, every post seen so
far lists drawn names only, and posts of different ids list different objects. -/
structure MediaInvariant (past : List PostStep) (w : World) : Prop where
  decodes : Decodes w
  exist : ∀ p : Post, p.ReadFrom w → ∀ ref ∈ p.media, (w.storage ref).isSome
  drawn : ∀ p : Post, p.Seen past w → ∀ ref ∈ p.media, ref.name ∈ w.uuids
  apart : ∀ p q : Post, p.Seen past w → q.Seen past w → p.postId ≠ q.postId →
    ∀ ref ∈ p.media, ref ∉ q.media

section Step

variable {past : List PostStep} {step : PostStep} {w' : World}

/-- After an operation other than a deletion, at most one post has new media, and these are
fresh objects. -/
theorem PostEffect.readFrom {w : World} {storedOne : Prop} (h : PostEffect w w' storedOne) :
    ∃ id, ∀ q : Post, q.ReadFrom w' →
      (∃ p : Post, p.ReadFrom w ∧ p.postId = q.postId ∧ p.media = q.media) ∨
        (q.postId = id ∧ ∀ ref ∈ q.media, FreshObject w w' ref) := by
  have hinsert : ∀ {id : PostId} {p : Post} {d : Doc}, Post.ofJson id d = some p →
      w'.firestore .posts = (w.firestore .posts).insert id d → ∀ q : Post, q.ReadFrom w' →
        q.ReadFrom w ∨ q = p := by
    rintro id p d hdecode hposts q ⟨d', hd', hq⟩
    rw [hposts, Collection.getElem?_insert] at hd'
    by_cases hid : id = q.postId
    · rw [if_pos hid] at hd'
      obtain rfl := Option.some.inj hd'
      rw [hid] at hdecode
      exact .inr (Option.some.inj (hq.symm.trans hdecode))
    · rw [if_neg hid] at hd'
      exact .inl ⟨d', hd', hq⟩
  cases h with
  | kept hposts _ _ =>
    refine ⟨"", fun q ⟨d, hd, hq⟩ => .inl ⟨q, ⟨d, ?_, hq⟩, rfl, rfl⟩⟩
    rw [← hposts]
    exact hd
  | stored p d hdecode hposts _ hfresh _ =>
    refine ⟨p.postId, fun q hq => ?_⟩
    rcases hinsert hdecode hposts q hq with hq | rfl
    · exact .inl ⟨q, hq, rfl, rfl⟩
    · exact .inr ⟨rfl, hfresh⟩
  | reworded p d₀ d message hbefore hdecode₀ hdecode hposts _ _ =>
    refine ⟨"", fun q hq => .inl ?_⟩
    rcases hinsert hdecode hposts q hq with hq | rfl
    · exact ⟨q, hq, rfl, rfl⟩
    · exact ⟨p, ⟨d₀, hbefore, hdecode₀⟩, rfl, rfl⟩

theorem PostEffect.keepsMedia {w : World} {storedOne : Prop} (h : PostEffect w w' storedOne) :
    w.KeepsMedia w' := by
  cases h with
  | kept _ hmedia _ => exact hmedia
  | stored _ _ _ _ hmedia _ _ => exact hmedia
  | reworded _ _ _ _ _ _ _ _ hmedia _ => exact hmedia

/-- An operation other than a deletion keeps the invariant. -/
theorem MediaInvariant.effect {storedOne : Prop} (hi : MediaInvariant past step.before)
    (h : PostEffect step.before w' storedOne) : MediaInvariant (past ++ [step]) w' := by
  have hmedia := h.keepsMedia
  obtain ⟨id, hread⟩ := h.readFrom
  -- a post seen after the step has the media of one seen before, or is the one with fresh media
  have hseen : ∀ q : Post, q.Seen (past ++ [step]) w' →
      (∃ p : Post, p.Seen past step.before ∧ p.postId = q.postId ∧ p.media = q.media) ∨
        (q.postId = id ∧ ∀ ref ∈ q.media, FreshObject step.before w' ref) := by
    intro q hq
    rcases hq.snoc with hq | hq
    · rcases hread q hq with ⟨p, hp, hid, hm⟩ | hfresh
      · exact .inl ⟨p, .inl hp, hid, hm⟩
      · exact .inr hfresh
    · exact .inl ⟨q, hq, rfl, rfl⟩
  refine ⟨h.decodes hi.decodes, ?_, ?_, ?_⟩
  · intro q hq ref href
    rcases hread q hq with ⟨p, hp, -, hm⟩ | ⟨-, hfresh⟩
    · rw [← hm] at href
      rw [hmedia.kept ref (hi.drawn p (.inl hp) ref href)]
      exact hi.exist p hp ref href
    · exact (hfresh ref href).exist
  · intro q hq ref href
    rcases hseen q hq with ⟨p, hp, -, hm⟩ | ⟨-, hfresh⟩
    · rw [← hm] at href
      exact hmedia.uuids (hi.drawn p hp ref href)
    · exact (hfresh ref href).drawn
  · intro p q hp hq hne ref href href'
    rcases hseen p hp with ⟨p', hp', hpid, hpm⟩ | ⟨hpid, hpfresh⟩ <;>
      rcases hseen q hq with ⟨q', hq', hqid, hqm⟩ | ⟨hqid, hqfresh⟩
    · rw [← hpid, ← hqid] at hne
      rw [← hpm] at href
      rw [← hqm] at href'
      exact hi.apart p' q' hp' hq' hne ref href href'
    · rw [← hpm] at href
      exact (hqfresh ref href').fresh (hi.drawn p' hp' ref href)
    · rw [← hqm] at href'
      exact (hpfresh ref href).fresh (hi.drawn q' hq' ref href')
    · exact hne (hpid.trans hqid.symm)

/-- A whole deletion of a post seen before keeps the invariant. -/
theorem MediaInvariant.delete {post : Post} {tr : List AppEvent} {out : Except Exc Bool × Unit}
    (hi : MediaInvariant past step.before) (hseen : post.Seen past step.before)
    (hwhole : (∃ ref, Returned (DeletedObject ref) tr) → ¬ Failed tr)
    (h : Runs World.step step.before (DeletePostStateNotifier.deletePost post ()) tr out w') :
    MediaInvariant (past ++ [step]) w' := by
  obtain ⟨removed, rest, hdeleted, hstorage, huuids, hend⟩ :=
    wp.elim (DeletePostStateNotifier.deletePost_spec post () step.before) h
  -- nothing is read afterwards that was not stored before, and a deleted object belongs to none
  have hread : ∀ q : Post, q.ReadFrom w' →
      q.ReadFrom step.before ∧ ∀ ref ∈ removed, ref ∉ q.media := by
    rintro q ⟨d, hd, hq⟩
    rcases hend with ⟨-, -, -, hexact⟩ | ⟨-, hfailed, hposts, -⟩
    · obtain ⟨hgone, hother⟩ := DeletePostStateNotifier.documents_of_afterDeletion hexact
      have hne : q.postId ≠ post.postId := by
        intro he
        rw [he] at hd
        cases hgone.document.symm.trans hd
      rw [hother q.postId hne] at hd
      have hbefore : q.ReadFrom step.before := ⟨d, hd, hq⟩
      refine ⟨hbefore, fun ref href href' => ?_⟩
      have hlisted : ref ∈ post.media := by
        rw [hdeleted.split]
        exact List.mem_append_left _ href
      exact hi.apart q post (.inl hbefore) hseen hne ref href' hlisted
    · rw [hposts] at hd
      refine ⟨⟨d, hd, hq⟩, fun ref href _ => ?_⟩
      exact hwhole ⟨ref, (hdeleted.returned ref).mpr href⟩ hfailed
  have hseen' : ∀ q : Post, q.Seen (past ++ [step]) w' → q.Seen past step.before := by
    intro q hq
    rcases hq.snoc with hq | hq
    · exact .inl (hread q hq).1
    · exact hq
  refine ⟨?_, ?_, ?_, ?_⟩
  · intro id d hd
    rcases hend with ⟨-, -, -, hexact⟩ | ⟨-, -, hposts, -⟩
    · obtain ⟨hgone, hother⟩ := DeletePostStateNotifier.documents_of_afterDeletion hexact
      have hne : id ≠ post.postId := by
        rintro rfl
        cases hgone.document.symm.trans hd
      rw [hother id hne] at hd
      exact hi.decodes id d hd
    · rw [hposts] at hd
      exact hi.decodes id d hd
  · intro q hq ref href
    obtain ⟨hbefore, hkept⟩ := hread q hq
    have hnot : ref ∉ removed := fun hmem => hkept ref hmem href
    rw [hstorage, World.removeAll_storage, if_neg hnot]
    exact hi.exist q hbefore ref href
  · intro q hq ref href
    rw [huuids]
    exact hi.drawn q (hseen' q hq) ref href
  · intro p q hp hq
    exact hi.apart p q (hseen' p hp) (hseen' q hq)

end Step

/-- The invariant gives the media of every stored post. -/
theorem MediaInvariant.everyMediaExist {past : List PostStep} {w : World}
    (h : MediaInvariant past w) : EveryMediaExist w := by
  intro id d hd
  obtain ⟨p, hp⟩ := h.decodes id d hd
  obtain rfl : p.postId = id := (Post.ofJson_eq_some_iff.mp hp).postId
  exact ⟨p, hp, Post.mediaExist_of_media (h.exist p ⟨d, hd, hp⟩)⟩

/-- From an empty collection, every run whose deletions complete once they deleted an object
keeps the media of every stored post. -/
theorem everyMediaExist_of_session {w₀ w : World} {past : List PostStep}
    (hempty : w₀.firestore .posts = ∅)
    (h : Session World.step PostOperation.program
      (fun past step => FromApp past step ∧ step.op.WholeDeletion step.trace) w₀ past w) :
    EveryMediaExist w := by
  have hnone : ∀ p : Post, ¬ p.ReadFrom w₀ := by
    rintro p ⟨d, hd, -⟩
    simp [hempty] at hd
  have hinitial : MediaInvariant [] w₀ := by
    have hunseen : ∀ p : Post, ¬ p.Seen [] w₀ := by
      rintro p (hp | ⟨step, hstep, -⟩)
      · exact hnone p hp
      · cases hstep
    refine ⟨fun id d hd => ?_, fun p hp => absurd hp (hnone p), fun p hp => absurd hp (hunseen p),
      fun p _ hp => absurd hp (hunseen p)⟩
    simp [hempty] at hd
  refine (h.invariant MediaInvariant hinitial ?_).everyMediaExist
  rintro past w op tr out w' hi ⟨⟨hposts, hseen⟩, hwhole⟩ hrun
  by_cases hdelete : ∃ post, op = .deletePost post
  · obtain ⟨post, rfl⟩ := hdelete
    exact hi.delete (hseen post rfl) hwhole hrun
  · exact hi.effect (PostOperation.effect hposts (fun post he => hdelete ⟨post, he⟩) hi.decodes
      hrun)

/-- An upload of one picture. -/
def uploadPicture : PostOperation := .upload ⟨"a.jpg"⟩ .image none (some []) "u" none

/-- The post that the upload of one picture leaves on the working backend. -/
def uploadedPicture : Post where
  postId := "11"
  userId := "u"
  message := ""
  createdAt := some 11
  thumbnailUrl := ["thumbnails/6"]
  fileUrl := ["images/6"]
  fileType := .image
  fileName := ["6"]
  aspectRatio := [500 / 3]
  thumbnailStorageId := ["6"]
  originalFileStorageId := ["6"]
  postSettings := []

/-- The post stored under an id, as a test reads it. -/
def World.postAt (w : World) (id : PostId) : Option Post :=
  (w.firestore .posts)[id]?.bind (Post.ofJson id)

theorem Post.readFrom_of_postAt (p : Post) {w : World} (h : w.postAt p.postId = some p) :
    p.ReadFrom w :=
  Option.bind_eq_some_iff.mp h

/-- Two uploads on a working backend, and the whole deletion of the first post. -/
theorem everyMediaExist_of_session_deletion :
    ∃ past w, Session World.step PostOperation.program
      (fun past step => FromApp past step ∧ step.op.WholeDeletion step.trace) World.initial past w ∧
      (∃ step ∈ past, step.op = .deletePost uploadedPicture ∧
        uploadedPicture.ReadFrom step.before ∧
        Returned (DeletedObject ⟨"u", thumbnails, "6"⟩) step.trace) ∧
      (w.postAt "31").isSome ∧ EveryMediaExist w := by
  have hexec : (uploadPicture.program.exec World.step World.working 0 World.initial).any
      (fun r => (uploadPicture.program.exec World.step World.working 20 r.2.2).any
        fun r' => r'.2.2.postAt "11" = some uploadedPicture &&
          ((PostOperation.deletePost uploadedPicture).program.exec World.step World.working 40
            r'.2.2).any fun r'' => Returned (DeletedObject ⟨"u", thumbnails, "6"⟩) r''.1 &&
              ¬ Failed r''.1 && (r''.2.2.postAt "31").isSome) = true := by decide +kernel
  obtain ⟨tr₁, out₁, w₁, hupload₁, hcheck⟩ := Program.exec_any hexec
  obtain ⟨tr₂, out₂, w₂, hupload₂, hcheck⟩ := Program.exec_any hcheck
  obtain ⟨hstored, hcheck⟩ := (Bool.and_eq_true _ _).mp hcheck
  obtain ⟨tr₃, out₃, w₃, hdelete, hcheck⟩ := Program.exec_any hcheck
  obtain ⟨hcheck, hkept⟩ := (Bool.and_eq_true _ _).mp hcheck
  obtain ⟨hdeleted, hwhole⟩ := (Bool.and_eq_true _ _).mp hcheck
  have hread := uploadedPicture.readFrom_of_postAt (of_decide_eq_true hstored)
  have huploads : Session World.step PostOperation.program
      (fun past step => FromApp past step ∧ step.op.WholeDeletion step.trace) World.initial
      [⟨World.initial, uploadPicture, tr₁, out₁⟩, ⟨w₁, uploadPicture, tr₂, out₂⟩] w₂ :=
    .snoc (.single hupload₁ ⟨⟨nofun, nofun⟩, trivial⟩) hupload₂ ⟨⟨nofun, nofun⟩, trivial⟩
  have hsession := huploads.snoc hdelete ⟨⟨trivial, fun post he => by cases he; exact .inl hread⟩,
    fun _ => of_decide_eq_true hwhole⟩
  exact ⟨_, w₃, hsession, ⟨_, List.mem_append_right _ (List.mem_singleton_self _), rfl, hread,
    of_decide_eq_true hdeleted⟩, hkept, everyMediaExist_of_session rfl hsession⟩

/-- A deletion that fails at the original leaves a post without its thumbnail. -/
theorem not_everyMediaExist_of_failed_deletion :
    ¬ ∀ past w, Session World.step PostOperation.program FromApp World.initial past w →
      EveryMediaExist w := by
  intro hall
  have hexec : (uploadPicture.program.exec World.step World.working 0 World.initial).any
      (fun r => r.2.2.postAt "11" = some uploadedPicture &&
        ((PostOperation.deletePost uploadedPicture).program.exec World.step (World.failingAt 2) 0
          r.2.2).any fun r' => r'.2.2.postAt "11" = some uploadedPicture &&
            (r'.2.2.storage ⟨"u", thumbnails, "6"⟩).isNone) = true := by decide +kernel
  obtain ⟨tr, out, w₁, hrun, hcheck⟩ := Program.exec_any hexec
  obtain ⟨hstored, hcheck⟩ := (Bool.and_eq_true _ _).mp hcheck
  obtain ⟨tr', out', w₂, hrun', hcheck⟩ := Program.exec_any hcheck
  obtain ⟨hstored', hmissing⟩ := (Bool.and_eq_true _ _).mp hcheck
  have hread := uploadedPicture.readFrom_of_postAt (of_decide_eq_true hstored)
  have hupload : Session World.step PostOperation.program FromApp World.initial
      [⟨World.initial, uploadPicture, tr, out⟩] w₁ := .single hrun ⟨nofun, nofun⟩
  have hsession := hupload.snoc hrun' ⟨trivial, fun post he => by cases he; exact .inl hread⟩
  obtain ⟨d, hd, hp⟩ := uploadedPicture.readFrom_of_postAt (of_decide_eq_true hstored')
  obtain ⟨p, hp', hexist⟩ := hall _ w₂ hsession "11" d hd
  obtain rfl : uploadedPicture = p := Option.some.inj (hp.symm.trans hp')
  have hthumbnail : (w₂.storage ⟨"u", thumbnails, "6"⟩).isSome :=
    hexist.thumbnails "6" (List.mem_singleton.mpr rfl)
  rw [Option.isNone_iff_eq_none.mp hmissing] at hthumbnail
  cases hthumbnail

end TekkGram
