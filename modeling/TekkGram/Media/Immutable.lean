import TekkGram.App.Operations
import TekkGram.Interaction.Fresh
import TekkGram.Model.Working

/-!
# Stored media never change

Every operation that stores media stores them under names that it has drawn, a thumbnail and an
original under each name at most once. Names are never drawn twice. So whatever the operations of
several users interleave, no object is ever stored in the place of another one: what a post, a
message or a profile refers to shows the same picture for as long as it exists, and is gone for good
after its deletion.
-/

namespace TekkGram

open Interaction Async

/-- The name of a reference has been drawn. -/
def DrawsName (e : AppEvent) (ref : Reference) : Prop := e = ⟨.uuidV4, .ok ref.name⟩

/-- The name of a reference is one that has been drawn. -/
def NameDrawn (n : Network) (ref : Reference) : Prop := ref.name ∈ n.uuids

/-- A body stores objects under names that it has drawn, and nothing twice. -/
abbrev StoresFresh {σ α : Type} (m : Action σ α) : Prop := m.UsesFresh Call.storesAt DrawsName

/-- A call that stores no object. -/
abbrev Call.StoresNothing (c : Call) : Prop := c.storesAt = none

section Bodies

variable {σ α : Type}

theorem Call.MakesThumbnail.storesNothing {c : Call} (h : c.MakesThumbnail) : c.StoresNothing := by
  cases c <;> first | rfl | simp at h

theorem storesFresh_imageThumbnail (n : Notifier) (file : File) :
    StoresFresh (imageThumbnail n file : Action σ (Option Uint8List)) :=
  ((imageThumbnail_calls n file).mono fun _ h => h.storesNothing).usesFresh

/-- A thumbnail and its original are stored once, in different folders. -/
theorem storeMedia_usesAmong (userId folder fileName : String) (thumbnail : Uint8List)
    (file : File) : (storeMedia userId folder fileName thumbnail file).UsesAmong Call.storesAt
      [thumbnailReference userId fileName, ⟨userId, folder, fileName⟩] := by
  unfold storeMedia
  refine usesAmong_call_bind rfl fun _ => usesAmong_bind_calls calls_modify fun _ => ?_
  refine usesAmong_bind_calls (calls_call rfl) fun _ => ?_
  refine usesAmong_bind_calls calls_modify fun _ => ?_
  refine usesAmong_call_bind rfl fun _ => ?_
  refine Calls.usesAmong (calls_bind calls_modify fun _ => ?_)
  exact calls_bind (calls_call rfl) fun _ => calls_modify

/-- A name is used for a thumbnail and an original. -/
theorem storesFresh_draw (userId : String) {folder : String} (hfolder : folder ≠ thumbnails)
    {f : String → Action σ α} (hf : ∀ fileName, (f fileName).UsesAmong Call.storesAt
      [thumbnailReference userId fileName, ⟨userId, folder, fileName⟩]) :
    StoresFresh (await .uuidV4 >>= f) := by
  refine usesFresh_draw rfl fun fileName => ⟨_, ?_, ?_, hf fileName⟩
  · refine List.nodup_cons.mpr ⟨fun hmem => ?_, List.nodup_singleton _⟩
    exact hfolder (congrArg Reference.folder (List.mem_singleton.mp hmem)).symm
  · exact List.forall_mem_cons.mpr ⟨rfl, List.forall_mem_singleton.mpr rfl⟩

theorem storesFresh_storeListedMedia (userId : String) {folder : String}
    (hfolder : folder ≠ thumbnails) (thumbnail : Uint8List) (file : File) :
    StoresFresh (storeListedMedia userId folder thumbnail file) := by
  unfold storeListedMedia
  refine usesFresh_bind (Calls.usesFresh (calls_call rfl)) fun _ => ?_
  refine usesFresh_bind (Calls.usesFresh calls_modify) fun _ => ?_
  refine storesFresh_draw userId hfolder fun fileName => ?_
  refine usesAmong_bind_calls (calls_call rfl) fun _ => ?_
  refine usesAmong_bind_calls calls_modify fun _ => ?_
  exact usesAmong_tryCatch (storeMedia_usesAmong _ _ _ _ _) fun _ => calls_pure

theorem storesFresh_storeNamedMedia (userId : String) {folder : String}
    (hfolder : folder ≠ thumbnails) (thumbnail : Uint8List) (file : File) :
    StoresFresh (EditPostNotifier.storeNamedMedia userId folder thumbnail file) := by
  unfold EditPostNotifier.storeNamedMedia
  refine usesFresh_bind (Calls.usesFresh (calls_call rfl)) fun _ => ?_
  refine usesFresh_bind (Calls.usesFresh calls_modify) fun _ => ?_
  refine storesFresh_draw userId hfolder fun fileName => ?_
  refine usesAmong_bind_calls calls_modify fun _ => ?_
  exact storeMedia_usesAmong _ _ _ _ _

/-- The frame of an operation stores nothing. -/
theorem storesFresh_frame {m : Action σ Bool} {n : Notifier} (hm : StoresFresh m) :
    StoresFresh (tryFinally (tryCatch m fun _ => pure false) (await (.setLoading n false))) :=
  usesFresh_tryFinally (usesFresh_tryCatch hm fun _ => usesFresh_pure)
    (Calls.usesFresh (calls_call rfl))

end Bodies

section Operations

theorem storeAndPost_usesAmong (file : File) (fileType : FileType) (message : Option String)
    (postSettings : Option (List (PostSettings × Bool))) (userId : UserId)
    (userData : Option UserInfoModel) (thumbnail : Uint8List) (ratio : ℚ) (fileName : String) :
    (ImageUploadNotifier.storeAndPost file fileType message postSettings userId userData thumbnail
      ratio fileName).UsesAmong Call.storesAt
      [thumbnailReference userId fileName, ⟨userId, fileType.collectionName, fileName⟩] := by
  unfold ImageUploadNotifier.storeAndPost
  refine usesAmong_call_bind rfl fun _ => usesAmong_call_bind rfl fun _ => Calls.usesAmong ?_
  by_cases hfileType : fileType = .userImage
  · rw [if_pos hfileType]
    refine calls_bind (calls_call rfl) fun _ => calls_bind calls_first fun _ => ?_
    exact calls_bind (calls_call rfl) fun _ => calls_bind (calls_call rfl) fun _ => calls_pure
  · rw [if_neg hfileType]
    refine calls_bind (calls_call rfl) fun _ => calls_bind (calls_call rfl) fun _ => ?_
    exact calls_bind calls_nullCheck fun _ => calls_bind (calls_call rfl) fun _ => calls_pure

theorem storesFresh_upload (file : File) (fileType : FileType) (message : Option String)
    (postSettings : Option (List (PostSettings × Bool))) (userId : UserId)
    (userData : Option UserInfoModel) : StoresFresh
      (ImageUploadNotifier.upload file fileType message postSettings userId userData) := by
  refine usesFresh_bind (Calls.usesFresh (calls_call rfl)) fun _ => ?_
  refine usesFresh_bind (Calls.usesFresh ((ImageUploadNotifier.thumbnailOf_calls fileType file).mono
    fun _ h => h.storesNothing)) fun thumbnail => ?_
  cases thumbnail with
  | none => exact usesFresh_pure
  | some bytes =>
    refine usesFresh_bind (Calls.usesFresh (calls_call rfl)) fun ratio => ?_
    refine storesFresh_draw userId fileType.collectionName_ne_thumbnails fun fileName => ?_
    refine usesAmong_tryFinally (usesAmong_tryCatch ?_ fun _ => calls_pure) (calls_call rfl)
    exact storeAndPost_usesAmong file fileType message postSettings userId userData bytes ratio _

theorem storesFresh_uploadImageFile (userId : UserId) (fileType : FileType) (imageFile : File) :
    StoresFresh (ImageUploadNotifier.uploadImageFile userId fileType imageFile) := by
  refine usesFresh_bind (Calls.usesFresh (calls_call rfl)) fun bytes => ?_
  refine usesFresh_bind (Calls.usesFresh (calls_call rfl)) fun image => ?_
  cases image with
  | none => exact Calls.usesFresh (calls_call rfl)
  | some image =>
    cases fileType with
    | video => exact Calls.usesFresh calls_throw
    | userImage => exact Calls.usesFresh calls_throw
    | image =>
      refine usesFresh_bind (storesFresh_imageThumbnail _ _) fun thumbnail => ?_
      cases thumbnail with
      | none => exact usesFresh_pure
      | some bytes =>
        exact storesFresh_storeListedMedia _ (FileType.collectionName_ne_thumbnails .image) _ _

theorem storesFresh_editImageFile (userId : UserId) (fileType : FileType) (file : File) :
    StoresFresh (EditPostNotifier.editImageFile userId fileType file) := by
  cases fileType with
  | userImage => exact Calls.usesFresh calls_throw
  | video =>
    refine usesFresh_bind (Calls.usesFresh ((videoThumbnail_calls _ _).mono
      fun _ h => h.storesNothing)) fun thumb => ?_
    exact storesFresh_storeNamedMedia _ (FileType.collectionName_ne_thumbnails .video) _ _
  | image =>
    refine usesFresh_bind (storesFresh_imageThumbnail _ _) fun thumbnail => ?_
    cases thumbnail with
    | none => exact usesFresh_pure
    | some bytes =>
      exact storesFresh_storeNamedMedia _ (FileType.collectionName_ne_thumbnails .image) _ _

theorem storesFresh_sendImageFile (currentUserId : UserId) (imageFile : File) :
    StoresFresh (ChatMessageNotifier.sendImageFile currentUserId imageFile) := by
  refine usesFresh_bind (storesFresh_imageThumbnail _ _) fun thumbnail => ?_
  cases thumbnail with
  | none => exact usesFresh_pure
  | some bytes => exact storesFresh_storeListedMedia _ chatFolder_ne_thumbnails _ _

theorem storesFresh_uploadMultipleImageFiles (files : List File) (message : Option String)
    (postSettings : Option (List (PostSettings × Bool))) (fileType : FileType) (userId : UserId) :
    StoresFresh (ImageUploadNotifier.uploadMultipleImageFiles files message postSettings fileType
      userId) := by
  refine usesFresh_withLocals (usesFresh_bind (Calls.usesFresh (calls_call rfl)) fun _ => ?_)
  refine storesFresh_frame (usesFresh_bind (usesFresh_forEach fun file _ =>
    storesFresh_uploadImageFile _ _ _) fun _ => Calls.usesFresh ?_)
  refine calls_bind calls_get fun lists => calls_bind calls_nullCheck fun settings => ?_
  exact calls_bind (calls_call rfl) fun _ => calls_pure

theorem storesFresh_editImagePost (userId : UserId) (postId : PostId) (message : String)
    (files : List File) (fileType : FileType) :
    StoresFresh (EditPostNotifier.editImagePost userId postId message files fileType) := by
  refine usesFresh_withLocals (usesFresh_bind (Calls.usesFresh (calls_call rfl)) fun _ => ?_)
  refine storesFresh_frame (usesFresh_bind (Calls.usesFresh (calls_call rfl)) fun docs => ?_)
  dsimp only
  split
  · exact usesFresh_pure
  · refine usesFresh_bind (usesFresh_forEach fun file _ => storesFresh_editImageFile _ _ _) ?_
    refine fun _ => Calls.usesFresh (calls_bind calls_get fun lists => ?_)
    exact calls_bind calls_first fun data => calls_bind (calls_call rfl) fun _ => calls_pure

theorem storesFresh_sendMessage (groupChatId currentUserId receiverId message : String)
    (files : List File) : StoresFresh
      (ChatMessageNotifier.sendMessage groupChatId currentUserId receiverId message files) := by
  have hset : ∀ id messageChat, (ChatMessageNotifier.setMessage groupChatId id messageChat :
      Action MediaLists Unit).Calls Call.StoresNothing := fun _ _ =>
    calls_bind (calls_call rfl) fun _ => calls_pure
  refine usesFresh_withLocals (usesFresh_bind (Calls.usesFresh (calls_call rfl)) fun _ => ?_)
  refine storesFresh_frame (usesFresh_bind (Calls.usesFresh (calls_call rfl)) fun now => ?_)
  split
  · exact Calls.usesFresh (calls_bind (hset _ _) fun _ => calls_pure)
  · refine usesFresh_bind (usesFresh_forEach fun file _ => storesFresh_sendImageFile _ _) ?_
    refine fun _ => Calls.usesFresh (calls_bind calls_get fun lists => ?_)
    exact calls_bind (hset _ _) fun _ => calls_pure

theorem deletePost_storesNothing (post : Post) :
    (DeletePostStateNotifier.deletePost post).Calls Call.StoresNothing := by
  have hall : ∀ path, (DeletePostStateNotifier.deleteAllDocuments post.postId path).Calls
      Call.StoresNothing := fun path =>
    calls_bind (calls_call rfl) fun _ => calls_bind (calls_call rfl) fun _ => calls_pure
  have hmedia : (DeletePostStateNotifier.deleteMedia post).Calls Call.StoresNothing :=
    calls_bind (calls_forEach fun _ _ => calls_call rfl) fun _ =>
      calls_forEach fun _ _ => calls_call rfl
  refine calls_tryFinally (calls_tryCatch ?_ fun _ => calls_pure) (calls_call rfl)
  refine calls_bind (calls_call rfl) fun _ => calls_bind hmedia fun _ => ?_
  refine calls_bind (hall _) fun _ => calls_bind (hall _) fun _ => calls_bind (calls_call rfl) ?_
  exact fun _ => calls_bind (calls_forEach fun _ _ => calls_call rfl) fun _ => calls_pure

theorem deleteComment_storesNothing (commentId : CommentId) :
    (DeleteCommentStateNotifier.deleteComment commentId).Calls Call.StoresNothing := by
  refine calls_tryFinally (calls_tryCatch ?_ fun _ => calls_pure) (calls_call rfl)
  refine calls_bind (calls_call rfl) fun _ => calls_bind (calls_call rfl) fun _ => ?_
  exact calls_bind (calls_forEach fun _ _ => calls_call rfl) fun _ => calls_pure

theorem likeDislikePost_storesNothing (request : LikeDislikeRequest) :
    (likeDislikePost request).Calls Call.StoresNothing := by
  refine calls_bind (calls_call rfl) fun docs => ?_
  split
  · refine calls_bind (calls_call rfl) fun now => calls_tryCatch ?_ fun _ => calls_pure
    exact calls_bind (calls_call rfl) fun _ => calls_pure
  · refine calls_tryCatch (calls_bind (calls_forEach fun _ _ => calls_call rfl) fun _ => ?_) ?_
    · exact calls_pure
    · exact fun _ => calls_pure

/-- Operations without media of a user store nothing. -/
theorem AppOperation.MayCall.storesNothing {stored : CollectionPath → String → Doc → Prop}
    {op : AppOperation} (hop : op.mediaOf = none) {c : Call} (h : op.MayCall stored c) :
    c.StoresNothing := by
  cases c with
  | putData ref bytes => cases hop.symm.trans h
  | putFile ref file => cases hop.symm.trans h
  | _ => rfl

/-- Every operation stores objects under names that it has drawn, and nothing twice. -/
theorem AppOperation.usesFresh (op : AppOperation) :
    op.program.UsesFresh Call.storesAt DrawsName := by
  have hvalue : ∀ {m : Action Unit Bool}, StoresFresh m →
      (ignoreValue m ()).UsesFresh Call.storesAt DrawsName := fun hm =>
    (usesFresh_bind hm fun _ => usesFresh_pure : StoresFresh (ignoreValue _)) ()
  -- the operations without media of a user, whatever is stored
  have hmayCall : ∀ {op : AppOperation} {m : Action Unit Bool}, op.mediaOf = none →
      m.Calls (op.MayCall fun _ _ _ => True) → StoresFresh m := fun hop hm =>
    (hm.mono fun _ hc => hc.storesNothing hop).usesFresh
  cases op with
  | likeDislike request => exact hvalue (likeDislikePost_storesNothing request).usesFresh
  | operation op =>
    cases op with
    | auth op =>
      have hauth : op.program.Calls
          ((AppOperation.operation (.auth op)).MayCall fun _ _ _ => True) := op.mayCall
      exact (hauth.mono fun _ hc => hc.storesNothing rfl).usesFresh
    | post op =>
      cases op with
      | upload => exact hvalue (storesFresh_upload _ _ _ _ _ _)
      | uploadMultipleImageFiles =>
        exact hvalue (storesFresh_uploadMultipleImageFiles _ _ _ _ _)
      | editPost => exact hvalue (hmayCall rfl (EditPostNotifier.editPost_mayCall _ _))
      | editImagePost => exact hvalue (storesFresh_editImagePost _ _ _ _ _)
      | deletePost => exact hvalue (deletePost_storesNothing _).usesFresh
    | sendComment fromUserId onPostId comment repliedUserName repliedUserId =>
      refine hvalue (usesFresh_bind (Calls.usesFresh (calls_call rfl)) fun _ => ?_)
      refine storesFresh_frame (Calls.usesFresh ?_)
      exact calls_bind (calls_call rfl) fun _ => calls_pure
    | updateComment =>
      exact hvalue (hmayCall rfl (SendCommentNotifier.updateComment_mayCall _ _ _ _ _ _))
    | deleteComment => exact hvalue (deleteComment_storesNothing _).usesFresh
    | sendMessage => exact hvalue (storesFresh_sendMessage _ _ _ _ _)

end Operations

/-- Whatever a reference has held, it holds nothing else afterwards. -/
structure MediaImmutable (runs : List (Nat × AppOperation)) (n : Network)
    (moves : List DeviceMove) : Prop where
  /-- An object is stored where none has been. -/
  once : ∀ past m ref, past ++ [m] <+: moves → m.event.local.call.storesAt = some ref →
    ∀ w, Pool.Passed Network.step (fun _ _ _ => True) (appPool runs n) past w → w.storage ref = none
  /-- A reference shows one object, as long as it shows any. -/
  same : Pool.Agrees Network.step (fun _ _ _ => True) (appPool runs n) moves Network.storage
  /-- A deleted object does not come back. -/
  gone : ∀ past m ref P, past ++ [m] <+: moves → m.event.local = ⟨.deleteObject ref, .ok ()⟩ →
    AppSteps runs n moves P → P.state.storage ref = none

section Steps

variable {runs : List (Nat × AppOperation)} {n : Network} {past moves : List DeviceMove}
  {m : DeviceMove} {P P' : AppDevices} {ref : Reference}

/-- No name is drawn twice. -/
theorem drawsOnce_networkStep : DrawsOnce Network.step DrawsName NameDrawn where
  kept {n c r n'} h ref href := by
    obtain ⟨w, hw, rfl⟩ := Option.map_eq_some_iff.mp h
    exact (World.step_media hw).2 href
  drawn {n c r n'} h ref hdraws := by
    obtain ⟨w, hw, rfl⟩ := Option.map_eq_some_iff.mp h
    obtain ⟨device, c⟩ := c
    cases hdraws
    simp only [World.step, World.perform] at hw
    split at hw
    · cases hw
    · rename_i hnew
      cases hw
      exact ⟨hnew, List.mem_cons_self ..⟩

/-- An object that is there has been there from the beginning, or a move has stored it. -/
theorem stored_of_steps (h : AppSteps runs n moves P) (hstored : (P.state.storage ref).isSome) :
    (n.storage ref).isSome ∨ ∃ m ∈ moves, m.event.local.call.storesAt = some ref := by
  induction h with
  | nil => exact .inl hstored
  | @snoc past P₁ P₂ m hpast hstep _ ih =>
    cases hstep with
    | mk hthread haccept =>
      obtain ⟨w, hw, rfl⟩ := Option.map_eq_some_iff.mp haccept
      obtain ⟨blob, hblob⟩ := Option.isSome_iff_exists.mp hstored
      rcases World.storage_of_step hw hblob with hbefore | hstores
      · rcases ih (by rw [Option.isSome_iff_exists]; exact ⟨blob, hbefore⟩) with hinit | hmoved
        · exact .inl hinit
        · obtain ⟨m, hm, hstores⟩ := hmoved
          exact .inr ⟨m, List.mem_append_left _ hm, hstores⟩
      · exact .inr ⟨_, List.mem_append_right _ List.mem_cons_self, hstores⟩

/-- An object that is there after a move was there before, or the move has stored it. -/
theorem storage_of_step (hstep : Pool.Step Network.step P m P') {blob : Blob}
    (hblob : P'.state.storage ref = some blob) :
    P.state.storage ref = some blob ∨ m.event.local.call.storesAt = some ref := by
  cases hstep with
  | mk hthread haccept =>
    obtain ⟨w, hw, rfl⟩ := Option.map_eq_some_iff.mp haccept
    exact World.storage_of_step hw hblob

/-- A deletion that returns has deleted an object. -/
theorem deleted_of_step (hstep : Pool.Step Network.step P m P')
    (hdelete : m.event.local = ⟨.deleteObject ref, .ok ()⟩) :
    (P.state.storage ref).isSome ∧ P'.state.storage ref = none := by
  cases hstep with
  | @mk _ _ _ _ c _ r hthread haccept =>
    obtain ⟨w, hw, rfl⟩ := Option.map_eq_some_iff.mp haccept
    obtain ⟨device, c⟩ := c
    cases hdelete
    simp only [World.step, World.perform] at hw
    split at hw
    · rename_i hstored
      cases hw
      exact ⟨hstored, Function.update_self ..⟩
    · cases hw

/-- An object is stored where none has been, if what is stored in the beginning has drawn names. -/
theorem storage_eq_none_of_step (hn : ∀ ref, (n.storage ref).isSome → NameDrawn n ref)
    (h : AppSteps runs n moves P) (hbegins : past ++ [m] <+: moves)
    (hstores : m.event.local.call.storesAt = some ref) {w : Network}
    (hw : Pool.Passed Network.step (fun _ _ _ => True) (appPool runs n) past w) :
    w.storage ref = none := by
  obtain ⟨P₂, hsteps⟩ := h.of_prefix hbegins
  obtain ⟨P₁, hpast, hstep⟩ := hsteps.of_snoc
  have hprograms : ∀ p ∈ runs.map fun run => (run.1, run.2.program),
      p.2.UsesFresh Call.storesAt DrawsName := by
    intro p hp
    obtain ⟨run, -, rfl⟩ := List.mem_map.mp hp
    exact run.2.usesFresh
  obtain ⟨hinit, hmoves⟩ := hpast.not_used_before (fun _ => .error .unavailable)
    drawsOnce_networkStep hprograms hstep hstores
  obtain ⟨earlier, P₀, hearlier, hsteps₀, rfl⟩ := hw
  refine Option.not_isSome_iff_eq_none.mp fun hstored => ?_
  rcases stored_of_steps hsteps₀ hstored with hbefore | ⟨m', hm', hstores'⟩
  · exact hinit (hn ref hbefore)
  · exact hmoves m' (hearlier.subset hm') hstores'

/-- Where nothing is stored over an object, a deleted one does not come back. -/
theorem storage_eq_none_of_deleted (h : AppSteps runs n moves P)
    (honce : ∀ past m, past ++ [m] <+: moves → m.event.local.call.storesAt = some ref →
      ∀ w, Pool.Passed Network.step (fun _ _ _ => True) (appPool runs n) past w →
        w.storage ref = none)
    (hbegins : past ++ [m] <+: moves) (hdelete : m.event.local = ⟨.deleteObject ref, .ok ()⟩) :
    P.state.storage ref = none := by
  induction h with
  | nil => exact absurd (List.prefix_nil.mp hbegins) (by simp)
  | @snoc moves P₁ P₂ m' hmoves hstep _ ih =>
    rcases List.prefix_concat_iff.mp hbegins with heq | hearlier
    · obtain ⟨rfl, hm⟩ := List.append_inj' heq rfl
      cases hm
      exact (deleted_of_step hstep hdelete).2
    · have hnone := ih (fun past m hpast => honce past m (hpast.trans (List.prefix_append _ _)))
        hearlier
      refine Option.eq_none_iff_forall_ne_some.mpr fun blob hblob => ?_
      rcases storage_of_step hstep hblob with hbefore | hstores
      · cases hnone.symm.trans hbefore
      · -- the deleted object has been there, so that nothing is stored in its place
        obtain ⟨Q₂, hdeletes⟩ := hmoves.of_prefix hearlier
        obtain ⟨Q₁, hpast, hdeleted⟩ := hdeletes.of_snoc
        have hpassed := hpast.passed.mono ((List.prefix_append _ _).trans hearlier)
        have hold := honce moves m' (List.prefix_refl _) hstores _ hpassed
        exact absurd (deleted_of_step hdeleted hdelete).1 (by rw [hold]; exact Bool.false_ne_true)

/-- Whatever the operations of several users interleave on their devices, with any failures: no
object is stored over another one, a reference shows one object at most throughout, and a deleted
object does not come back. -/
theorem mediaImmutable_of_steps (hn : ∀ ref, (n.storage ref).isSome → NameDrawn n ref)
    (h : AppSteps runs n moves P) : MediaImmutable runs n moves := by
  have honce : ∀ past m ref, past ++ [m] <+: moves → m.event.local.call.storesAt = some ref →
      ∀ w, Pool.Passed Network.step (fun _ _ _ => True) (appPool runs n) past w →
        w.storage ref = none := fun past m ref hbegins hstores w hw =>
    storage_eq_none_of_step hn h hbegins hstores hw
  refine ⟨honce, ?_, fun past m ref P' hbegins hdelete h' => ?_⟩
  · refine h.agrees fun past m P₁ P₂ hbegins hpast hstep _ ref blob hblob => ?_
    rcases storage_of_step hstep hblob with hbefore | hstores
    · exact .inl hbefore
    · exact .inr fun w hw => honce past m ref hbegins hstores w hw
  · exact storage_eq_none_of_deleted h' (fun past m => honce past m ref) hbegins hdelete

end Steps

/-- Two pictures are posted at the same time, and one of the posts is deleted. -/
def postedAndDeleted : List (Nat × AppOperation) :=
  [(0, .operation (.post (.upload ⟨"f"⟩ .image none (some []) "u" none))),
   (1, .operation (.post (.upload ⟨"g"⟩ .image none (some []) "u" none))),
   (2, .operation (.post (.deletePost
     ⟨"22", "u", "", some 22, [], [], .image, ["12"], [], ["12"], ["12"], []⟩)))]

/-- The picture of the deleted post is gone, and the other one is there. -/
theorem mediaImmutable_of_steps_deleted : ∃ moves P,
    AppSteps postedAndDeleted (.ofWorld .initial) moves P ∧
    MediaImmutable postedAndDeleted (.ofWorld .initial) moves ∧
    P.state.storage ⟨"u", "images", "12"⟩ = none ∧
    P.state.storage ⟨"u", "images", "13"⟩ = some (.file ⟨"g"⟩) := by
  have hexec : (Pool.exec Network.step Network.working (fun _ _ => true)
      ((List.replicate 13 [0, 1]).flatten ++ List.replicate 10 2) []
      (appPool postedAndDeleted (.ofWorld .initial))).any (fun r =>
        decide (r.2.state.storage ⟨"u", "images", "12"⟩ = none) &&
          decide (r.2.state.storage ⟨"u", "images", "13"⟩ = some (.file ⟨"g"⟩))) = true := by
    decide +kernel
  obtain ⟨moves, P, hsteps, htest⟩ := Pool.exec_any (fun _ _ _ _ => trivial) hexec
  obtain ⟨hgone, hkept⟩ := Bool.and_eq_true_iff.mp htest
  have himmutable : MediaImmutable postedAndDeleted (.ofWorld .initial) moves :=
    mediaImmutable_of_steps (fun ref href => by cases href) hsteps
  exact ⟨moves, P, hsteps, himmutable, of_decide_eq_true hgone, of_decide_eq_true hkept⟩

end TekkGram
