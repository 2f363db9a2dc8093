import TekkGram.Interaction.Closing
import TekkGram.Loading.FlagOff

/-!
# Flags are turned off last

`isLoadingProvider` watches one flag of each notifier. An operation turns the flag of its own
notifier on before it awaits anything, and turns it off with its last call. The exception are the
loops over several files, which also turn it off at a file without a thumbnail and go on with the
next one.
-/

namespace TekkGram

open Interaction Async

/-- A flag that `isLoadingProvider` watches: the one of the authentication state, or the state of
another notifier. -/
abbrev Flag := Option Notifier

/-- The value of a flag. -/
def World.flag (w : World) : Flag → Bool
  | none => w.authState.isLoading
  | some n => w.loading n

/-- `isLoadingProvider`. -/
def isLoadingProvider (w : World) : Bool :=
  w.authState.isLoading || w.loading .imageUpload || w.loading .sendComment ||
    w.loading .deleteComment || w.loading .deletePost || w.loading .editPost ||
    w.loading .sendChatMessage

/-- The flag that a call writes, and the value written. -/
@[simp] def Call.setsFlag : Call → Option (Flag × Bool)
  | .setLoading n v => some (some n, v)
  | .setAuthState state => some (none, state.isLoading)
  | _ => none

/-- The flag of the notifier of an operation. -/
def Operation.flag : Operation → Flag
  | auth _ => none
  | post (.upload ..) => some .imageUpload
  | post (.uploadMultipleImageFiles ..) => some .imageUpload
  | post (.editPost ..) => some .editPost
  | post (.editImagePost ..) => some .editPost
  | post (.deletePost ..) => some .deletePost
  | sendComment .. => some .sendComment
  | updateComment .. => some .sendComment
  | deleteComment .. => some .deleteComment
  | sendMessage .. => some .sendChatMessage

/-- A file has no thumbnail: it cannot be decoded, or none is made of the video. -/
@[simp] def NoThumbnail : (c : Call) → Ans c → Prop
  | .decodeImage _, image => image = none
  | .thumbnailData _ _ _, thumb => thumb = none
  | _, _ => False

/-- A file of an operation on several files has a thumbnail. -/
def Operation.Readable (op : Operation) (e : AppEvent) : Prop :=
  match op with
  | post (.upload ..) => True
  | _ => ¬ Returned NoThumbnail [e]

/-- Calls that turn off no flag, and turn on no other flag than this one. -/
@[simp] def Call.KeepsFlag (f : Flag) (c : Call) : Prop :=
  c.setsFlag = none ∨ c.setsFlag = some (f, true)

/-- Calls that turn this flag off. -/
@[simp] def Call.TurnsOff (f : Flag) (c : Call) : Prop := c.setsFlag = some (f, false)

/-- The provider is on as soon as one flag is. -/
theorem isLoadingProvider_of_flag {w : World} {f : Flag} (h : w.flag f = true) :
    isLoadingProvider w = true := by
  cases f with
  | none => simp [isLoadingProvider, show w.authState.isLoading = true from h]
  | some n =>
    have hn : w.loading n = true := h
    cases n <;> simp [isLoadingProvider, hn]

section Step

variable {w w' : World} {c : Call} {r : Fallible Exc Ans c}

/-- Writing documents changes no flag. -/
theorem World.foldl_write_flag (writes : List Write) (w : World) (t : Timestamp) (f : Flag) :
    (writes.foldl (fun w => w.write t) w).flag f = w.flag f := by
  induction writes generalizing w with
  | nil => rfl
  | cons write writes ih =>
    rw [List.foldl_cons, ih]
    cases write <;> cases f <;> rfl

/-- A call that sets no flag leaves all flags as they are. -/
theorem World.flag_of_not_sets (h : World.step w c r = some w') (hc : c.setsFlag = none)
    (f : Flag) : w'.flag f = w.flag f := by
  cases r with
  | error e => rw [World.step_error h]
  | ok a =>
    rw [World.step_ok] at h
    cases c with
    | setLoading n v => cases hc
    | setAuthState state => cases hc
    | commit writes =>
      cases h
      exact World.foldl_write_flag writes w a f
    | _ =>
      simp only [World.perform] at h
      first
        | cases h; cases f <;> rfl
        | (split at h <;> cases h); cases f <;> rfl

/-- A call that sets a flag sets this one only. -/
theorem World.flag_of_sets (h : World.step w c r = some w') {f : Flag} {v : Bool}
    (hc : c.setsFlag = some (f, v)) (f' : Flag) :
    w'.flag f' = if f = f' then v else w.flag f' := by
  cases r with
  | error e =>
    cases c with
    | setLoading n v' => cases e <;> cases h
    | setAuthState state => cases e <;> cases h
    | _ => cases hc
  | ok a =>
    cases c with
    | setLoading n v' =>
      cases h
      cases hc
      cases f' with
      | none => rfl
      | some n' => simp [World.flag, Function.update_apply, eq_comm]
    | setAuthState state =>
      cases h
      cases hc
      cases f' <;> rfl
    | _ => cases hc

end Step

section Closes

variable {σ : Type} {R : AppEvent → Prop} {f : Flag}

/-- The bodies that leave the flags to their caller. -/
theorem keeps_of_calls {α : Type} {m : Action σ α} (hm : m.Calls fun c => c.setsFlag = none) :
    m.Keeps R (Call.KeepsFlag f) (Call.TurnsOff f) := (hm.mono fun _ => .inl).closes

/-- Turning the flag off as the last call. -/
theorem closes_turnOff {n : Notifier} : (await (.setLoading n false) : Action σ Unit).Closes R
    (Call.KeepsFlag (some n)) (Call.TurnsOff (some n)) fun _ => True :=
  closes_last (L := Call.TurnsOff (some n)) (c := Call.setLoading n false) rfl fun _ => trivial

theorem keeps_turnOn {n : Notifier} : (await (.setLoading n true) : Action σ Unit).Keeps R
    (Call.KeepsFlag (some n)) (Call.TurnsOff (some n)) :=
  closes_call (c := Call.setLoading n true) (.inr rfl)

/-- The usual end of an operation: a `finally` clause that turns its flag off. -/
theorem closes_finally {α : Type} {m : Action σ α} {n : Notifier}
    (hm : m.Keeps R (Call.KeepsFlag (some n)) (Call.TurnsOff (some n))) :
    (tryFinally m (await (.setLoading n false))).Closes R (Call.KeepsFlag (some n))
      (Call.TurnsOff (some n)) fun _ => True :=
  closes_tryFinally hm fun s => ⟨_, _, rfl, rfl, fun r => ⟨(r, s), rfl⟩⟩

/-- The frame of the operations that turn their flag on inside the `try` block. -/
theorem closes_inner_frame {n : Notifier} {m : Action σ Bool}
    (hm : m.Keeps R (Call.KeepsFlag (some n)) (Call.TurnsOff (some n))) :
    (tryFinally (tryCatch m fun _ => pure false) (await (.setLoading n false))).Closes R
      (Call.KeepsFlag (some n)) (Call.TurnsOff (some n)) fun _ => True :=
  closes_finally (keeps_tryCatch hm fun _ => closes_pure)

/-- The usual frame of an operation, whose `try` block leaves the flags alone. -/
theorem closes_frame {n : Notifier} {m : Action σ Bool}
    (hm : m.Keeps R (Call.KeepsFlag (some n)) (Call.TurnsOff (some n))) :
    (await (.setLoading n true) >>= fun _ => tryFinally (tryCatch m fun _ => pure false)
      (await (.setLoading n false)) : Action σ Bool).Closes R (Call.KeepsFlag (some n))
        (Call.TurnsOff (some n)) fun _ => True :=
  closes_bind_keeps keeps_turnOn fun _ => closes_inner_frame hm

/-- A picture's thumbnail, of a file that has one. -/
theorem imageThumbnail_keeps (hR : ∀ e, R e → ¬ Returned NoThumbnail [e]) (n : Notifier)
    (file : File) : (imageThumbnail n file : Action σ (Option Uint8List)).Keeps R
      (Call.KeepsFlag f) (Call.TurnsOff f) := by
  refine closes_bind_keeps (closes_call (.inl rfl)) fun bytes => ?_
  refine closes_call_bind (.inl rfl) fun image hread => ?_
  cases image with
  | none => exact absurd (by simp) (hR _ hread)
  | some image =>
    exact keeps_of_calls (calls_bind (calls_call rfl) fun _ => calls_bind (calls_call rfl) fun _ =>
      calls_pure)

/-- A video's thumbnail, of a file that has one. -/
theorem videoThumbnail_keeps (hR : ∀ e, R e → ¬ Returned NoThumbnail [e]) (n : Notifier)
    (file : File) : (videoThumbnail n file : Action σ Uint8List).Keeps R
      (Call.KeepsFlag f) (Call.TurnsOff f) := by
  refine closes_call_bind (.inl rfl) fun thumb hread => ?_
  cases thumb with
  | none => exact absurd (by simp) (hR _ hread)
  | some bytes => exact closes_pure

theorem Call.StoresFile.setsFlag {c : Call} (h : c.StoresFile) : c.setsFlag = none := by
  cases c <;> simp at h ⊢

theorem StoresAndPosts.setsFlag {c : Call} (h : ImageUploadNotifier.StoresAndPosts c) :
    c.setsFlag = none := by
  cases c <;> simp at h ⊢

theorem Call.Profile.setsFlag {c : Call} (h : c.Profile) : c.setsFlag = none := by
  cases c <;> simp at h ⊢

theorem Call.Google.setsFlag {c : Call} (h : c.Google) : c.setsFlag = none := by
  cases c <;> simp at h ⊢

end Closes

namespace ImageUploadNotifier

variable {R : AppEvent → Prop}

/-- A single upload turns its flag off last also when the file has no thumbnail. -/
theorem upload_closes (file : File) (fileType : FileType) (message : Option String)
    (postSettings : Option (List (PostSettings × Bool))) (userId : UserId)
    (userData : Option UserInfoModel) :
    (upload file fileType message postSettings userId userData).Closes R
      (Call.KeepsFlag (some .imageUpload)) (Call.TurnsOff (some .imageUpload)) fun _ => True := by
  have himage : (imageThumbnail .imageUpload file : Action Unit (Option Uint8List)).Closes R
      (Call.KeepsFlag (some .imageUpload)) (Call.TurnsOff (some .imageUpload))
      fun out => ∀ thumbnail, out = .ok thumbnail → thumbnail = none := by
    refine closes_bind_keeps (closes_call (.inl rfl)) fun bytes => ?_
    refine closes_bind_keeps (closes_call (.inl rfl)) fun image => ?_
    cases image with
    | none =>
      refine closes_bind closes_turnOff
        (fun _ _ s => ⟨(.ok none, s), fun _ h => (Except.ok.inj h).symm, rfl⟩) ?_ fun _ =>
          closes_pure
      intro _ _ _ h
      cases h
    | some image =>
      exact Calls.closes (calls_bind (calls_call (.inl rfl)) fun _ =>
        calls_bind (calls_call (.inl rfl)) fun _ => calls_pure)
  have hvideo : (videoThumbnail .imageUpload file : Action Unit Uint8List).Closes R
      (Call.KeepsFlag (some .imageUpload)) (Call.TurnsOff (some .imageUpload))
      fun out => ∃ e, out = .error e := by
    refine closes_bind_keeps (closes_call (.inl rfl)) fun thumb => ?_
    cases thumb with
    | none =>
      exact closes_bind closes_turnOff
        (fun _ _ s => ⟨(.error .couldNotBuildThumbnail, s), ⟨_, rfl⟩, rfl⟩) (fun e _ => ⟨e, rfl⟩)
        fun _ => closes_throw
    | some bytes => exact closes_pure
  have hthumbnail : (thumbnailOf fileType file).Closes R (Call.KeepsFlag (some .imageUpload))
      (Call.TurnsOff (some .imageUpload))
      fun out => ∀ thumbnail, out = .ok thumbnail → thumbnail = none := by
    cases fileType with
    | image => exact himage
    | userImage => exact himage
    | video =>
      refine closes_bind hvideo (fun _ h => absurd h (by simp)) (fun e _ _ h => ?_) fun _ =>
        closes_pure
      cases h
  unfold upload
  refine closes_bind_keeps keeps_turnOn fun _ => ?_
  refine closes_bind hthumbnail ?_ (fun _ _ => trivial) fun thumbnail => ?_
  · intro thumbnail hnone s
    rw [hnone thumbnail rfl]
    exact ⟨(.ok false, s), trivial, rfl⟩
  cases thumbnail with
  | none => exact closes_pure
  | some thumbnail =>
    refine closes_bind_keeps (keeps_of_calls (calls_call rfl)) fun ratio => ?_
    refine closes_bind_keeps (keeps_of_calls (calls_call rfl)) fun fileName => ?_
    exact closes_inner_frame (keeps_of_calls
      ((storeAndPost_calls _ _ _ _ _ _ _ _ _).mono fun _ => StoresAndPosts.setsFlag))

/-- The callback for one file, of a file that has a thumbnail. -/
theorem uploadImageFile_keeps (hR : ∀ e, R e → ¬ Returned NoThumbnail [e]) (userId : UserId)
    (fileType : FileType) (imageFile : File) : (uploadImageFile userId fileType imageFile).Keeps R
      (Call.KeepsFlag (some .imageUpload)) (Call.TurnsOff (some .imageUpload)) := by
  unfold uploadImageFile
  refine closes_bind_keeps (keeps_of_calls (calls_call rfl)) fun bytes => ?_
  refine closes_call_bind (.inl rfl) fun image hread => ?_
  cases image with
  | none => exact absurd (by simp) (hR _ hread)
  | some image =>
    cases fileType with
    | video => exact closes_throw
    | userImage => exact closes_throw
    | image =>
      refine closes_bind_keeps (imageThumbnail_keeps hR _ _) fun thumbnail => ?_
      cases thumbnail with
      | none => exact closes_pure
      | some thumbnail =>
        exact keeps_of_calls ((storeListedMedia_calls _ _ _ _).mono fun _ =>
          Call.StoresFile.setsFlag)

theorem uploadMultipleImageFiles_closes (hR : ∀ e, R e → ¬ Returned NoThumbnail [e])
    (files : List File) (message : Option String)
    (postSettings : Option (List (PostSettings × Bool))) (fileType : FileType) (userId : UserId) :
    (uploadMultipleImageFiles files message postSettings fileType userId).Closes R
      (Call.KeepsFlag (some .imageUpload)) (Call.TurnsOff (some .imageUpload)) fun _ => True := by
  refine closes_withLocals (closes_frame ?_)
  refine closes_bind_keeps (keeps_forEach fun file _ => uploadImageFile_keeps hR _ _ _) fun _ => ?_
  refine closes_bind_keeps closes_get fun lists => closes_bind_keeps ?_ fun settings => ?_
  · cases postSettings with
    | none => exact closes_throw
    | some settings => exact closes_pure
  · exact keeps_of_calls (calls_bind (calls_call rfl) fun _ => calls_pure)

end ImageUploadNotifier

namespace EditPostNotifier

variable {R : AppEvent → Prop}

theorem editPost_closes (postId : PostId) (message : String) : (editPost postId message).Closes R
    (Call.KeepsFlag (some .editPost)) (Call.TurnsOff (some .editPost)) fun _ => True := by
  refine closes_inner_frame (closes_bind_keeps keeps_turnOn fun _ => keeps_of_calls ?_)
  refine calls_bind (calls_call rfl) fun docs => ?_
  dsimp only
  split
  · exact calls_pure
  · exact calls_bind (calls_call rfl) fun _ => calls_pure

/-- The callback for one file, of a file that has a thumbnail. -/
theorem editImageFile_keeps (hR : ∀ e, R e → ¬ Returned NoThumbnail [e]) (userId : UserId)
    (fileType : FileType) (file : File) : (editImageFile userId fileType file).Keeps R
      (Call.KeepsFlag (some .editPost)) (Call.TurnsOff (some .editPost)) := by
  have hstore : ∀ folder thumbnail, (storeNamedMedia userId folder thumbnail file).Keeps R
      (Call.KeepsFlag (some .editPost)) (Call.TurnsOff (some .editPost)) := fun _ _ =>
    keeps_of_calls ((storeNamedMedia_calls _ _ _ _).mono fun _ => Call.StoresFile.setsFlag)
  unfold editImageFile
  cases fileType with
  | userImage => exact closes_throw
  | video => exact closes_bind_keeps (videoThumbnail_keeps hR _ _) fun thumb => hstore _ _
  | image =>
    refine closes_bind_keeps (imageThumbnail_keeps hR _ _) fun thumbnail => ?_
    cases thumbnail with
    | none => exact closes_pure
    | some thumbnail => exact hstore _ _

theorem editImagePost_closes (hR : ∀ e, R e → ¬ Returned NoThumbnail [e]) (userId : UserId)
    (postId : PostId) (message : String) (files : List File) (fileType : FileType) :
    (editImagePost userId postId message files fileType).Closes R
      (Call.KeepsFlag (some .editPost)) (Call.TurnsOff (some .editPost)) fun _ => True := by
  refine closes_withLocals (closes_frame ?_)
  refine closes_bind_keeps (keeps_of_calls (calls_call rfl)) fun docs => ?_
  dsimp only
  split
  · exact closes_pure
  · refine closes_bind_keeps (keeps_forEach fun file _ => editImageFile_keeps hR _ _ _) fun _ => ?_
    refine closes_bind_keeps closes_get fun lists => closes_bind_keeps ?_ fun data => ?_
    · cases docs with
      | nil => exact closes_throw
      | cons doc docs => exact closes_pure
    · exact keeps_of_calls (calls_bind (calls_call rfl) fun _ => calls_pure)

end EditPostNotifier

namespace ChatMessageNotifier

variable {R : AppEvent → Prop}

theorem sendMessage_closes (hR : ∀ e, R e → ¬ Returned NoThumbnail [e])
    (groupChatId currentUserId receiverId message : String) (files : List File) :
    (sendMessage groupChatId currentUserId receiverId message files).Closes R
      (Call.KeepsFlag (some .sendChatMessage)) (Call.TurnsOff (some .sendChatMessage))
        fun _ => True := by
  have hset : ∀ id messageChat, (setMessage groupChatId id messageChat >>= fun _ => pure true :
      Action MediaLists Bool).Calls fun c => c.setsFlag = none := fun _ _ =>
    calls_bind (calls_bind (calls_call rfl) fun _ => calls_pure) fun _ => calls_pure
  refine closes_withLocals (closes_frame ?_)
  refine closes_bind_keeps (keeps_of_calls (calls_call rfl)) fun now => ?_
  dsimp only
  split
  · exact keeps_of_calls (hset _ _)
  · refine closes_bind_keeps (keeps_forEach fun file _ => ?_) fun _ =>
      closes_bind_keeps closes_get fun lists => keeps_of_calls (hset _ _)
    refine closes_bind_keeps (imageThumbnail_keeps hR _ _) fun thumbnail => ?_
    cases thumbnail with
    | none => exact closes_pure
    | some thumbnail =>
      exact keeps_of_calls ((storeListedMedia_calls _ _ _ _).mono fun _ =>
        Call.StoresFile.setsFlag)

end ChatMessageNotifier

namespace AuthStateNotifier

variable {R : AppEvent → Prop}

theorem setIsLoading_keeps : (setIsLoading true).Keeps R (Call.KeepsFlag none)
    (Call.TurnsOff none) :=
  Calls.closes (calls_bind (calls_call (.inl rfl)) fun _ => calls_call (.inr rfl))

/-- Writing a state that is not loading as the last call. -/
theorem closes_setAuthState {state : AuthState} (h : state.isLoading = false) :
    (await (.setAuthState state) : Action Unit Unit).Closes R (Call.KeepsFlag none)
      (Call.TurnsOff none) fun _ => True :=
  closes_last (L := Call.TurnsOff none) (c := Call.setAuthState state)
    (congrArg (fun v => some (none, v)) h) fun _ => trivial

theorem loginWithGoogle_closes : loginWithGoogle.Closes R (Call.KeepsFlag none)
    (Call.TurnsOff none) fun _ => True := by
  refine closes_bind_keeps setIsLoading_keeps fun _ => ?_
  refine closes_bind_keeps (keeps_of_calls (Authenticator.loginWithGoogle_calls.mono fun _ =>
    Call.Google.setsFlag)) fun result => ?_
  refine closes_bind_keeps (keeps_of_calls (calls_bind (calls_call rfl) fun _ => calls_pure))
    fun userId => ?_
  refine closes_bind_keeps (keeps_of_calls ?_) fun _ => closes_setAuthState rfl
  unfold createProfileAfter
  split
  · refine calls_bind (calls_call rfl) fun docs => ?_
    split
    · exact (saveUserInfo_calls _).mono fun _ => Call.Profile.setsFlag
    · exact calls_pure
  · exact calls_pure

theorem logOut_closes : logOut.Closes R (Call.KeepsFlag none) (Call.TurnsOff none)
    fun _ => True := by
  refine closes_bind_keeps setIsLoading_keeps fun _ => ?_
  exact closes_bind_keeps (keeps_of_calls (calls_bind (calls_call rfl) fun _ => calls_call rfl))
    fun _ => closes_setAuthState rfl

theorem updateUserInfo_closes (userId : UserId) (displayName : String)
    (phone imageUrl : Option String) : (updateUserInfo userId displayName phone imageUrl).Closes R
      (Call.KeepsFlag none) (Call.TurnsOff none) fun _ => True := by
  refine closes_bind_keeps setIsLoading_keeps fun _ => ?_
  refine closes_bind_keeps (keeps_of_calls (calls_bind (calls_call rfl) fun _ => calls_pure))
    fun email => ?_
  refine closes_bind_keeps (keeps_of_calls ((UserInfoStorage.saveUserInfo_calls _ _ _ _ _).mono
    fun _ => Call.Profile.setsFlag)) fun saved => ?_
  have hoff : (setIsLoading false).Closes R (Call.KeepsFlag none) (Call.TurnsOff none)
      fun _ => True :=
    closes_bind_keeps (keeps_of_calls (calls_call rfl)) fun _ => closes_setAuthState rfl
  exact closes_bind hoff (fun _ _ s => ⟨(.ok saved, s), trivial, rfl⟩) (fun _ _ => trivial)
    fun _ => closes_pure

end AuthStateNotifier

/-- Every operation turns off no flag but its own, and that one with its last call, as long as the
files that it processes have thumbnails. -/
theorem Operation.closes (op : Operation) :
    op.program.Closes op.Readable (Call.KeepsFlag op.flag) (Call.TurnsOff op.flag)
      fun _ => True := by
  cases op with
  | auth op =>
    cases op with
    | loginWithGoogle => exact AuthStateNotifier.loginWithGoogle_closes ()
    | logOut => exact AuthStateNotifier.logOut_closes ()
    | updateUserInfo userId displayName phone imageUrl =>
      exact closes_ignoreValue
        (AuthStateNotifier.updateUserInfo_closes userId displayName phone imageUrl) ()
  | post op =>
    cases op with
    | upload file fileType message postSettings userId userData =>
      exact closes_ignoreValue (ImageUploadNotifier.upload_closes file fileType message
        postSettings userId userData) ()
    | uploadMultipleImageFiles files message postSettings fileType userId =>
      exact closes_ignoreValue (ImageUploadNotifier.uploadMultipleImageFiles_closes
        (fun _ h => h) files message postSettings fileType userId) ()
    | editPost postId message =>
      exact closes_ignoreValue (EditPostNotifier.editPost_closes postId message) ()
    | editImagePost userId postId message files fileType =>
      exact closes_ignoreValue (EditPostNotifier.editImagePost_closes (fun _ h => h) userId postId
        message files fileType) ()
    | deletePost post =>
      refine closes_ignoreValue (closes_inner_frame ?_) ()
      refine closes_bind_keeps keeps_turnOn fun _ => keeps_of_calls (calls_bind (calls_bind
        (calls_forEach fun _ _ => calls_call rfl) fun _ => calls_forEach fun _ _ => calls_call rfl)
          fun _ => ?_)
      have hdocuments : ∀ path, (DeletePostStateNotifier.deleteAllDocuments post.postId path).Calls
          fun c => c.setsFlag = none := fun _ =>
        calls_bind (calls_call rfl) fun _ => calls_bind (calls_call rfl) fun _ => calls_pure
      refine calls_bind (hdocuments _) fun _ => calls_bind (hdocuments _) fun _ => ?_
      exact calls_bind (calls_call rfl) fun docs =>
        calls_bind (calls_forEach fun _ _ => calls_call rfl) fun _ => calls_pure
  | sendComment =>
    exact closes_ignoreValue (closes_frame (keeps_of_calls
      (calls_bind (calls_call rfl) fun _ => calls_pure))) ()
  | updateComment commentId comment userId postId repliedUserId repliedUserName =>
    refine closes_ignoreValue (closes_frame (keeps_of_calls
      (calls_bind (calls_call rfl) fun comments => ?_))) ()
    dsimp only
    split
    · exact calls_pure
    · exact calls_bind (calls_call rfl) fun _ => calls_pure
  | deleteComment =>
    refine closes_ignoreValue (closes_inner_frame (closes_bind_keeps keeps_turnOn fun _ =>
      keeps_of_calls (calls_bind (calls_call rfl) fun docs => ?_))) ()
    exact calls_bind (calls_forEach fun _ _ => calls_call rfl) fun _ => calls_pure
  | sendMessage groupChatId currentUserId receiverId message files =>
    exact closes_ignoreValue (ChatMessageNotifier.sendMessage_closes (fun _ h => h) groupChatId
      currentUserId receiverId message files) ()

end TekkGram
