import TekkGram.Interaction.Since
import TekkGram.Model.Effects
import TekkGram.Notifiers.Auth
import TekkGram.Notifiers.ImageUpload

/-!
# Writers of profiles

Profiles are written in two ways: `saveUserInfo` updates the profile that its query has found or
adds one if there is none, and the upload of a profile picture updates the profile that its query
has found. In any environment, every write of a run is one of these.
-/

namespace TekkGram

open Interaction Async

/-- The query for a profile found this document first. -/
@[simp] def Found (userId : UserId) (id : String) : (c : Call) → Ans c → Prop
  | .get q, docs => q = UserInfoStorage.profileOf userId ∧ docs.head?.map (·.id) = some id
  | _, _ => False

/-- The query for a profile found none. -/
@[simp] def FoundNone (userId : UserId) : (c : Call) → Ans c → Prop
  | .get q, docs => q = UserInfoStorage.profileOf userId ∧ docs = []
  | _, _ => False

/-- This download URL was fetched. -/
@[simp] def Fetched (url : String) : (c : Call) → Ans c → Prop
  | .getDownloadURL _, url' => url' = url
  | _, _ => False

/-- The test for a fetched URL. -/
def fetched (url : String) : (c : Call) → Ans c → Bool
  | .getDownloadURL _, url' => url' = url
  | _, _ => false

theorem fetched_iff (url : String) (c : Call) (a : Ans c) :
    fetched url c a = true ↔ Fetched url c a := by
  cases c <;> simp [fetched]

instance (url : String) (c : Call) (a : Ans c) : Decidable (Fetched url c a) :=
  decidable_of_iff _ (fetched_iff url c a)

/-- A call keeps the profiles, updates the one that was found, or adds one when none was found. -/
def ProfileWrite (userId : UserId) (Fields : List AppEvent → Doc → Prop) (before : List AppEvent)
    (e : AppEvent) : Prop :=
  e.call.Keeps .users ∨
  (∃ id fields, e.call = .update .users id fields ∧ Returned (Found userId id) before ∧
    Fields before fields) ∨
  ∃ payload : Doc, e.call = .add .users payload ∧ Returned (FoundNone userId) before ∧
    payload.field FirebaseFieldName.userId = .string userId

section ProfileWrite

variable {userId : UserId} {Fields Fields' : List AppEvent → Doc → Prop} {tr tr' : List AppEvent}

theorem ProfileWrite.mono {before : List AppEvent} {e : AppEvent}
    (h : ProfileWrite userId Fields before e)
    (hfields : ∀ fields, Fields before fields → Fields' before fields) :
    ProfileWrite userId Fields' before e := by
  rcases h with hkeeps | ⟨id, fields, hcall, hfound, hwritten⟩ | hadds
  · exact .inl hkeeps
  · exact .inr (.inl ⟨id, fields, hcall, hfound, hfields fields hwritten⟩)
  · exact .inr (.inr hadds)

/-- Calls that keep the profiles write none throughout. -/
theorem profileWrite_of_keeps (h : ∀ e ∈ tr, e.call.Keeps .users) :
    Throughout (ProfileWrite userId Fields) tr :=
  .of_forall fun e he _ => .inl (h e he)

/-- A trace is continued by another, if what its fields say stays true with more before it. -/
theorem profileWrite_append (h : Throughout (ProfileWrite userId Fields) tr)
    (h' : Throughout (ProfileWrite userId Fields) tr')
    (hfields : ∀ before fields, Fields before fields → Fields (tr ++ before) fields) :
    Throughout (ProfileWrite userId Fields) (tr ++ tr') := by
  refine h.append h' ?_
  rintro before e (hkeeps | ⟨id, fields, hcall, hfound, hwritten⟩ | ⟨payload, hcall, hnone, huser⟩)
  · exact .inl hkeeps
  · exact .inr (.inl ⟨id, fields, hcall, returned_append.mpr (.inr hfound),
      hfields before fields hwritten⟩)
  · exact .inr (.inr ⟨payload, hcall, returned_append.mpr (.inr hnone), huser⟩)

end ProfileWrite

/-- Signing in keeps every collection. -/
theorem Call.Google.keeps {c : Call} (h : c.Google) (path : CollectionPath) : c.Keeps path := by
  cases c <;> simp at h ⊢

section Traces

variable {σ W : Type} {env : Environment W (Fallible Exc Ans)}

/-- A first part that keeps the profiles does not change which writes a body makes. -/
theorem wp_profileWrite_bind {α β : Type} {m : Action σ α} {f : α → Action σ β} {userId : UserId}
    {Fields : Doc → Prop} (hm : m.Calls (Call.Keeps .users))
    (hf : ∀ a s w, (f a).wp env
      (fun tr _ _ _ => Throughout (ProfileWrite userId fun _ => Fields) tr) s w) (s : σ) (w : W) :
    (m >>= f).wp env (fun tr _ _ _ => Throughout (ProfileWrite userId fun _ => Fields) tr) s w :=
  wp_bind_calls (Q := fun tr _ => Throughout (ProfileWrite userId fun _ => Fields) tr) hm
    (fun _ _ hkeeps => profileWrite_of_keeps hkeeps)
    (fun _ _ _ hkeeps h => profileWrite_append (profileWrite_of_keeps hkeeps) h fun _ _ hf => hf)
    hf s w

/-- `saveUserInfo` updates the profile that it has found, or adds one, and returns `true` after
that only. -/
theorem UserInfoStorage.saveUserInfo_writes (userId : UserId) (displayName : String)
    (email phone imageUrl : Option String) (s : σ) (w : W) :
    (saveUserInfo userId displayName email phone imageUrl : Action σ Bool).wp env
      (fun tr out _ _ => Throughout (ProfileWrite userId fun _ fields =>
          fields = updatedFields displayName email phone imageUrl) tr ∧
        (out = .ok true → ∃ id, Returned (Writes .users id) tr)) s w := by
  unfold saveUserInfo updateOrAdd
  rw [wp_tryCatch, wp_bind, wp_call]
  intro r w₁ _
  cases r with
  | error e =>
    rw [ends_error, ends_error, wp_pure]
    simp [ProfileWrite]
  | ok docs =>
    rw [ends_ok]
    cases docs with
    | nil =>
      rw [wp_bind, wp_call]
      intro r w₂ _
      cases r with
      | error e =>
        rw [ends_error, ends_error, wp_pure]
        simp [ProfileWrite, userInfoPayload, Doc.field]
      | ok added =>
        rw [ends_ok, wp_pure, ends_ok]
        simp [ProfileWrite, userInfoPayload, Doc.field]
    | cons doc docs =>
      rw [wp_bind, wp_call]
      intro r w₂ _
      cases r with
      | error e =>
        rw [ends_error, ends_error, wp_pure]
        simp [ProfileWrite]
      | ok _ =>
        rw [ends_ok, wp_pure, ends_ok]
        simp [ProfileWrite]

/-- The fields of `saveUserInfo`, whatever its arguments. -/
def UserInfoStorage.SavedFields (fields : Doc) : Prop :=
  ∃ displayName email phone imageUrl, fields = updatedFields displayName email phone imageUrl

/-- Saved fields do not change whose profile a document is. -/
theorem UserInfoStorage.SavedFields.userId {fields : Doc} (h : SavedFields fields) (d : Doc) :
    (d.merge fields).field FirebaseFieldName.userId = d.field FirebaseFieldName.userId := by
  obtain ⟨displayName, email, phone, imageUrl, rfl⟩ := h
  simp +decide only [updatedFields, Doc.field_merge_cons, Doc.field_merge_nil, Doc.field_set,
    ite_false]

namespace AuthStateNotifier

theorem setIsLoading_calls (isLoading : Bool) :
    (setIsLoading isLoading).Calls (Call.Keeps .users) :=
  calls_bind (calls_call trivial) fun _ => calls_call trivial

theorem currentUser_calls {α : Type} (f : Option FirebaseUser → α) :
    (await .currentUser >>= fun currentUser => pure (f currentUser) : Action Unit α).Calls
      (Call.Keeps .users) := calls_bind (calls_call trivial) fun _ => calls_pure

/-- `updateUserInfo` writes the profile with the arguments that it was given. -/
theorem updateUserInfo_writes (userId : UserId) (displayName : String)
    (phone imageUrl : Option String) (s : Unit) (w : W) :
    (updateUserInfo userId displayName phone imageUrl).wp env
      (fun tr _ _ _ => Throughout (ProfileWrite userId fun _ fields =>
        ∃ email, fields = UserInfoStorage.updatedFields displayName email phone imageUrl) tr)
      s w := by
  unfold updateUserInfo Authenticator.email
  refine wp_profileWrite_bind (setIsLoading_calls true) (fun _ s w => ?_) s w
  refine wp_profileWrite_bind (currentUser_calls _) (fun email s w => ?_) s w
  refine wp_bind.mpr (wp_mono (UserInfoStorage.saveUserInfo_writes userId displayName email phone
    imageUrl s w) ?_)
  rintro tr out s' w' ⟨hwrites, -⟩
  have hsaved : Throughout (ProfileWrite userId fun _ fields => ∃ email,
      fields = UserInfoStorage.updatedFields displayName email phone imageUrl) tr :=
    hwrites.mono fun _ _ h => h.mono fun _ hfields => ⟨email, hfields⟩
  cases out with
  | error e => exact hsaved
  | ok saved =>
    refine wp_mono (wp_calls (calls_bind (setIsLoading_calls false) fun _ => calls_pure) s' w') ?_
    intro tr' out _ _ hkeeps
    exact profileWrite_append hsaved (profileWrite_of_keeps hkeeps) fun _ _ h => h

/-- `updateUserInfo` returns `true` only when the profile was written. -/
theorem updateUserInfo_wrote (userId : UserId) (displayName : String)
    (phone imageUrl : Option String) (s : Unit) (w : W) :
    (updateUserInfo userId displayName phone imageUrl).wp env
      (fun tr out _ _ => out = .ok true → ∃ id, Returned (Writes .users id) tr) s w := by
  have hprepend : ∀ (tr tr' : List AppEvent) (out : Except Exc Bool),
      (∀ ev ∈ tr, ev.call.Keeps .users) →
      (out = .ok true → ∃ id, Returned (Writes .users id) tr') →
      (out = .ok true → ∃ id, Returned (Writes .users id) (tr ++ tr')) := by
    intro tr tr' out _ hwrote hsuccess
    obtain ⟨id, hid⟩ := hwrote hsuccess
    exact ⟨id, returned_append.mpr (.inr hid)⟩
  unfold updateUserInfo Authenticator.email
  refine wp_bind_calls (setIsLoading_calls true) (fun _ _ _ => nofun) hprepend (fun _ s w => ?_) s w
  refine wp_bind_calls (currentUser_calls _) (fun _ _ _ => nofun) hprepend (fun email s w => ?_) s w
  refine wp_bind.mpr (wp_mono (UserInfoStorage.saveUserInfo_writes userId displayName email phone
    imageUrl s w) ?_)
  rintro tr out s' w' ⟨-, hwrote⟩
  cases out with
  | error e => exact nofun
  | ok saved =>
    refine wp_bind.mpr (wp_mono (wp_calls (setIsLoading_calls false) s' w') ?_)
    intro tr' out _ _ _
    cases out with
    | error e => exact nofun
    | ok _ =>
      rw [ends_ok, wp_pure]
      intro hsuccess
      obtain ⟨id, hid⟩ := hwrote hsuccess
      exact ⟨id, returned_append.mpr (.inl hid)⟩

/-- The profile of the current user is saved under the given id. -/
theorem saveUserInfo_writes (userId : UserId) (s : Unit) (w : W) :
    (saveUserInfo userId).wp env (fun tr _ _ _ => Throughout (ProfileWrite userId fun _ =>
      UserInfoStorage.SavedFields) tr) s w := by
  unfold saveUserInfo Authenticator.displayName Authenticator.email Authenticator.phone
    Authenticator.imageUrl
  refine wp_profileWrite_bind (currentUser_calls _) (fun displayName s w => ?_) s w
  refine wp_profileWrite_bind (currentUser_calls _) (fun email s w => ?_) s w
  refine wp_profileWrite_bind (currentUser_calls _) (fun phone s w => ?_) s w
  refine wp_profileWrite_bind (currentUser_calls _) (fun imageUrl s w => ?_) s w
  refine wp_bind.mpr (wp_mono (UserInfoStorage.saveUserInfo_writes userId displayName email phone
    imageUrl s w) ?_)
  rintro tr out s' w' ⟨hwrites, -⟩
  have hsaved : Throughout (ProfileWrite userId fun _ => UserInfoStorage.SavedFields) tr :=
    hwrites.mono fun _ _ h => h.mono fun _ hfields => ⟨displayName, email, phone, imageUrl, hfields⟩
  cases out with
  | error e => exact hsaved
  | ok saved =>
    rw [ends_ok, wp_pure, List.append_nil]
    exact hsaved

/-- A login writes the profile of one user at most. -/
theorem loginWithGoogle_writes (s : Unit) (w : W) :
    loginWithGoogle.wp env (fun tr _ _ _ => ∃ userId, Throughout (ProfileWrite userId fun _ =>
      UserInfoStorage.SavedFields) tr) s w := by
  have hprepend : ∀ (tr tr' : List AppEvent) (out : Except Exc Unit),
      (∀ ev ∈ tr, ev.call.Keeps .users) →
      (∃ userId, Throughout (ProfileWrite userId fun _ => UserInfoStorage.SavedFields) tr') →
      ∃ userId, Throughout (ProfileWrite userId fun _ => UserInfoStorage.SavedFields)
        (tr ++ tr') := by
    rintro tr tr' out hkeeps ⟨userId, h⟩
    exact ⟨userId, profileWrite_append (profileWrite_of_keeps hkeeps) h fun _ _ hf => hf⟩
  have herror : ∀ (tr : List AppEvent) (e : Exc), (∀ ev ∈ tr, ev.call.Keeps .users) →
      ∃ userId, Throughout (ProfileWrite userId fun _ => UserInfoStorage.SavedFields) tr :=
    fun tr e hkeeps => ⟨"", profileWrite_of_keeps hkeeps⟩
  have hsignIn : (Authenticator.loginWithGoogle : Action Unit AuthResult).Calls
      (Call.Keeps .users) := Authenticator.loginWithGoogle_calls.mono fun c hc => hc.keeps _
  unfold loginWithGoogle Authenticator.userId
  refine wp_bind_calls (setIsLoading_calls true) herror hprepend (fun _ s w => ?_) s w
  refine wp_bind_calls hsignIn herror hprepend (fun result s w => ?_) s w
  refine wp_bind_calls (currentUser_calls _) herror hprepend (fun userId s w => ?_) s w
  have hkept : ∀ {m : Action Unit Unit}, m.Calls (Call.Keeps .users) → m.wp env
      (fun tr _ _ _ => ∃ userId, Throughout (ProfileWrite userId fun _ =>
        UserInfoStorage.SavedFields) tr) s w := fun hm =>
    wp_mono (wp_calls hm s w) fun _ _ _ _ hkeeps => ⟨"", profileWrite_of_keeps hkeeps⟩
  have hlast : ∀ state : AuthState, (await (.setAuthState state) : Action Unit Unit).Calls
      (Call.Keeps .users) := fun _ => calls_call trivial
  unfold createProfileAfter
  split
  · rename_i userId
    have hprofile : (createProfile userId).wp env (fun tr _ _ _ => Throughout (ProfileWrite userId
        fun _ => UserInfoStorage.SavedFields) tr) s w := by
      have hquery : (await (.get (UserInfoStorage.profileOf userId)) :
          Action Unit (List DocSnapshot)).Calls (Call.Keeps .users) := calls_call trivial
      refine wp_profileWrite_bind hquery (fun docs s w => ?_) s w
      by_cases hdocs : docs = []
      · rw [if_pos hdocs]
        exact saveUserInfo_writes userId s w
      · rw [if_neg hdocs, wp_pure]
        exact throughout_nil
    refine wp_bind.mpr (wp_mono hprofile ?_)
    intro tr out s' w' hwrites
    cases out with
    | error e => exact ⟨userId, hwrites⟩
    | ok _ =>
      refine wp_mono (wp_calls (hlast _) s' w') fun tr' _ _ _ hkeeps => ⟨userId, ?_⟩
      exact profileWrite_append hwrites (profileWrite_of_keeps hkeeps) fun _ _ hf => hf
  · exact hkept (calls_bind calls_pure fun _ => hlast _)

end AuthStateNotifier

namespace ImageUploadNotifier

/-- The fields of a profile picture's upload: a URL that the upload has fetched. -/
def PhotoFields (userData : Option UserInfoModel) (before : List AppEvent) (fields : Doc) : Prop :=
  ∃ url, Returned (Fetched url) before ∧ fields = profileFields userData url

/-- What the trace of a profile picture's upload says: it fetches at most one URL, and writes it to
the profile that it has found, and returns `true` after that only. -/
structure PhotoTrace (userId : UserId) (userData : Option UserInfoModel) (tr : List AppEvent)
    (out : Except Exc Bool) : Prop where
  writes : Throughout (ProfileWrite userId (PhotoFields userData)) tr
  fetched : ∀ url url', Returned (Fetched url) tr → Returned (Fetched url') tr → url = url'
  wrote : out = .ok true → ∃ id, Returned (Writes .users id) tr

/-- Calls before and after the `try` block of an upload. -/
@[simp] def Prepares (c : Call) : Prop :=
  c.Images ∨ (∃ n v, c = .setLoading n v) ∨ c = .uuidV4

theorem Prepares.keeps {c : Call} (h : Prepares c) : c.Keeps .users := by
  cases c <;> simp at h ⊢

theorem Prepares.not_fetched {c : Call} (h : Prepares c) (url : String) (a : Ans c) :
    ¬ Fetched url c a := by
  cases c <;> simp at h ⊢

section PhotoTrace

variable {userId : UserId} {userData : Option UserInfoModel} {tr tr' : List AppEvent}
  {out out' : Except Exc Bool}

theorem PhotoTrace.of_prepares (h : ∀ e ∈ tr, Prepares e.call) (hout : out ≠ .ok true) :
    PhotoTrace userId userData tr out where
  writes := profileWrite_of_keeps fun e he => (h e he).keeps
  fetched url _ hurl :=
    absurd hurl (not_returned_of_calls h fun _ a hc => hc.not_fetched url a)
  wrote hsuccess := absurd hsuccess hout

theorem PhotoTrace.prepend (h : PhotoTrace userId userData tr' out)
    (hpre : ∀ e ∈ tr, Prepares e.call) : PhotoTrace userId userData (tr ++ tr') out := by
  have hnone : ∀ url, ¬ Returned (Fetched url) tr := fun url =>
    not_returned_of_calls hpre fun _ a hc => hc.not_fetched url a
  refine ⟨?_, ?_, fun hsuccess => ?_⟩
  · refine profileWrite_append (profileWrite_of_keeps fun e he => (hpre e he).keeps) h.writes ?_
    rintro before fields ⟨url, hurl, hfields⟩
    exact ⟨url, returned_append.mpr (.inr hurl), hfields⟩
  · intro url url' hurl hurl'
    rw [returned_append, or_iff_right (hnone _)] at hurl hurl'
    exact h.fetched url url' hurl hurl'
  · obtain ⟨id, hid⟩ := h.wrote hsuccess
    exact ⟨id, returned_append.mpr (.inr hid)⟩

theorem PhotoTrace.append (h : PhotoTrace userId userData tr out)
    (hpost : ∀ e ∈ tr', Prepares e.call) (hout : out' = .ok true → out = .ok true) :
    PhotoTrace userId userData (tr ++ tr') out' := by
  have hnone : ∀ url, ¬ Returned (Fetched url) tr' := fun url =>
    not_returned_of_calls hpost fun _ a hc => hc.not_fetched url a
  refine ⟨?_, ?_, fun hsuccess => ?_⟩
  · exact throughout_append.mpr ⟨h.writes, .of_forall fun e he _ => .inl (hpost e he).keeps⟩
  · intro url url' hurl hurl'
    rw [returned_append, or_iff_left (hnone _)] at hurl hurl'
    exact h.fetched url url' hurl hurl'
  · obtain ⟨id, hid⟩ := h.wrote (hout hsuccess)
    exact ⟨id, returned_append.mpr (.inl hid)⟩

end PhotoTrace

/-- The `try` block of a profile picture's upload. -/
theorem storePhoto_trace (file : File) (message : Option String)
    (postSettings : Option (List (PostSettings × Bool))) (userId : UserId)
    (userData : Option UserInfoModel) (thumbnail : Uint8List) (ratio : ℚ) (fileName : String)
    (s : Unit) (w : W) :
    (storeAndPost file .userImage message postSettings userId userData thumbnail ratio fileName).wp
      env (fun tr out _ _ => PhotoTrace userId userData tr out) s w := by
  unfold storeAndPost
  rw [wp_bind, wp_call]
  intro r w₁ _
  cases r with
  | error e => exact ⟨by simp [ProfileWrite], by simp, by simp⟩
  | ok _ =>
    rw [ends_ok, wp_bind, wp_call]
    intro r w₂ _
    cases r with
    | error e => exact ⟨by simp [ProfileWrite], by simp, by simp⟩
    | ok _ =>
      rw [ends_ok, if_pos rfl, wp_bind, wp_call]
      intro r w₃ _
      cases r with
      | error e => exact ⟨by simp [ProfileWrite], by simp, by simp⟩
      | ok docs =>
        rw [ends_ok]
        cases docs with
        | nil =>
          rw [first, wp_bind, wp_throw, ends_error]
          exact ⟨by simp [ProfileWrite], by simp, by simp⟩
        | cons userInfo docs =>
          rw [first, wp_bind, wp_pure, ends_ok, wp_bind, wp_call]
          intro r w₄ _
          cases r with
          | error e => exact ⟨by simp [ProfileWrite], by simp, by simp⟩
          | ok imageUrl =>
            rw [ends_ok, wp_bind, wp_call]
            intro r w₅ _
            cases r with
            | error e =>
              exact ⟨by simp [ProfileWrite, PhotoFields, UserInfoStorage.profileOf],
                by simp [eq_comm], by simp⟩
            | ok _ =>
              rw [ends_ok, wp_pure]
              exact ⟨by simp [ProfileWrite, PhotoFields, UserInfoStorage.profileOf],
                by simp [eq_comm], fun _ => ⟨userInfo.id, by simp⟩⟩

/-- The upload of a profile picture. -/
theorem uploadPhoto_trace (file : File) (message : Option String)
    (postSettings : Option (List (PostSettings × Bool))) (userId : UserId)
    (userData : Option UserInfoModel) (s : Unit) (w : W) :
    (upload file .userImage message postSettings userId userData).wp env
      (fun tr out _ _ => PhotoTrace userId userData tr out) s w := by
  have herror : ∀ (tr : List AppEvent) (e : Exc), (∀ ev ∈ tr, Prepares ev.call) →
      PhotoTrace userId userData tr (.error e) := fun _ _ h => .of_prepares h nofun
  have hprepend : ∀ (tr tr' : List AppEvent) (out : Except Exc Bool),
      (∀ ev ∈ tr, Prepares ev.call) → PhotoTrace userId userData tr' out →
        PhotoTrace userId userData (tr ++ tr') out := fun _ _ _ hpre h => h.prepend hpre
  have hloading : ∀ v, (await (.setLoading .imageUpload v) : Action Unit Unit).Calls Prepares :=
    fun v => calls_call (.inr (.inl ⟨_, v, rfl⟩))
  have hthumbnail : (thumbnailOf .userImage file).Calls Prepares :=
    (thumbnailOf_calls .userImage file).mono fun c hc =>
      hc.imp_right fun ⟨n, hoff⟩ => .inl ⟨n, false, hoff⟩
  unfold upload
  refine wp_bind_calls (hloading true) herror hprepend (fun _ s w => ?_) s w
  refine wp_bind_calls hthumbnail herror hprepend (fun thumbnail s w => ?_) s w
  cases thumbnail with
  | none =>
    rw [wp_pure]
    exact .of_prepares (List.forall_mem_nil _) nofun
  | some bytes =>
    have hratio : (await (.getAspectRatio bytes) : Action Unit ℚ).Calls Prepares :=
      calls_call (.inl trivial)
    have hname : (await .uuidV4 : Action Unit String).Calls Prepares :=
      calls_call (.inr (.inr rfl))
    refine wp_bind_calls hratio herror hprepend (fun ratio s w => ?_) s w
    refine wp_bind_calls hname herror hprepend (fun fileName s w => ?_) s w
    rw [wp_tryFinally, wp_tryCatch]
    refine wp_mono (storePhoto_trace file message postSettings userId userData bytes ratio fileName
      s w) ?_
    intro tr out s' w' htrace
    cases out with
    | error e =>
      rw [ends_error, wp_pure, List.append_nil]
      refine wp_mono (wp_calls (hloading false) s' w') ?_
      intro tr' out s'' w'' hcalls
      cases out with
      | error e' => exact htrace.append hcalls nofun
      | ok _ => exact htrace.append hcalls nofun
    | ok stored =>
      rw [ends_ok]
      refine wp_mono (wp_calls (hloading false) s' w') ?_
      intro tr' out s'' w'' hcalls
      cases out with
      | error e' => exact htrace.append hcalls nofun
      | ok _ => exact htrace.append hcalls fun hsuccess => hsuccess

end ImageUploadNotifier

end Traces

end TekkGram
