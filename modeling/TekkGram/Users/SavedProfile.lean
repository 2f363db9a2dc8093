import TekkGram.Users.Profiles

/-!
# Writing a profile so that it is read

The profile of a user is the first document of the query for it, for its readers and writers
alike. What a login, an update or the upload of a profile picture writes is therefore what is read
next, and no other document is touched.
-/

namespace TekkGram

open Interaction Async

/-- The value that `userInfoModelProvider` emits for these profiles; none without a profile. -/
def userInfoModel (userId : UserId) (docs : Collection) : Option UserInfoModel :=
  ((UserInfoStorage.profileOf userId).eval docs).head?.bind fun doc =>
    UserInfoModel.fromJson doc.data userId

/-- The profile of a user was written so that it reads as this value. The document is the first one
of the query, and no other document is touched. -/
structure Written (userId : UserId) (model : UserInfoModel) (docs docs' : Collection) : Prop where
  write : ∃ (id : String) (d : Doc), docs' = docs.insert id d ∧
    d.field FirebaseFieldName.userId = .string userId ∧
    UserInfoModel.fromJson d userId = some model ∧
    (∀ d₀ : Doc, docs[id]? = some d₀ → d₀.field FirebaseFieldName.userId = .string userId) ∧
    ∀ (id' : String) (d' : Doc), docs[id']? = some d' →
      d'.field FirebaseFieldName.userId = .string userId → compare id id' ≠ .gt

section Written

variable {userId userId' : UserId} {model : UserInfoModel} {docs docs' : Collection}

theorem UserInfoStorage.selects_profileOf {id : String} {d : Doc} :
    (profileOf userId).selects id d = true ↔
      d.field FirebaseFieldName.userId = .string userId := by
  simp [profileOf, Query.selects]

/-- The query for a profile finds nothing exactly when no document is this user's. -/
theorem UserInfoStorage.eval_profileOf_eq_nil_iff : (profileOf userId).eval docs = [] ↔
    ∀ (id : String) (d : Doc), docs[id]? = some d →
      d.field FirebaseFieldName.userId ≠ .string userId := by
  rw [Query.eval_eq_nil_iff (by simp [profileOf])]
  refine forall₂_congr fun id d => imp_congr_right fun _ => ?_
  rw [← Bool.not_eq_true, selects_profileOf]

/-- An update of the document that the query has found. -/
theorem Written.of_update {doc : DocSnapshot} {rest : List DocSnapshot} {fields : Doc}
    (heval : (UserInfoStorage.profileOf userId).eval docs = doc :: rest)
    (huser : (doc.data.merge fields).field FirebaseFieldName.userId =
      doc.data.field FirebaseFieldName.userId)
    (hmodel : UserInfoModel.fromJson (doc.data.merge fields) userId = some model) :
    Written userId model docs (docs.insert doc.id (doc.data.merge fields)) := by
  obtain rfl : rest = [] := by
    have hcases : (UserInfoStorage.profileOf userId).eval docs = [] ∨
        ∃ s, (UserInfoStorage.profileOf userId).eval docs = [s] := Query.eval_of_limit_one rfl
    rcases hcases with hnil | ⟨s, hs⟩
    · cases heval.symm.trans hnil
    · exact (List.cons.inj (heval.symm.trans hs)).2
  obtain ⟨hstored, hselects, hleast⟩ := (Query.eval_eq_singleton_iff rfl).mp heval
  rw [UserInfoStorage.selects_profileOf] at hselects
  refine ⟨doc.id, _, rfl, huser.trans hselects, hmodel, fun d₀ hd₀ => ?_, fun id' d' hd' hd'' => ?_⟩
  · obtain rfl := Option.some.inj (hstored.symm.trans hd₀)
    exact hselects
  · exact hleast id' d' hd' (UserInfoStorage.selects_profileOf.mpr hd'')

/-- An addition of a profile after the query has found none. -/
theorem Written.of_add {id : String} {d : Doc}
    (heval : (UserInfoStorage.profileOf userId).eval docs = []) (hnew : id ∉ docs)
    (huser : d.field FirebaseFieldName.userId = .string userId)
    (hmodel : UserInfoModel.fromJson d userId = some model) :
    Written userId model docs (docs.insert id d) := by
  rw [UserInfoStorage.eval_profileOf_eq_nil_iff] at heval
  refine ⟨id, d, rfl, huser, hmodel, fun d₀ hd₀ => ?_, fun id' d' hd' hd'' => ?_⟩
  · rw [Std.ExtTreeMap.getElem?_eq_none hnew] at hd₀
    cases hd₀
  · exact absurd hd'' (heval id' d' hd')

/-- What was written is read. -/
theorem Written.read (h : Written userId model docs docs') :
    userInfoModel userId docs' = some model := by
  obtain ⟨id, d, rfl, huser, hmodel, -, hleast⟩ := h.write
  have heval : (UserInfoStorage.profileOf userId).eval (docs.insert id d) = [⟨id, d⟩] := by
    rw [Query.eval_eq_singleton_iff rfl]
    refine ⟨Collection.getElem?_insert_self, UserInfoStorage.selects_profileOf.mpr huser, ?_⟩
    intro id' d' hd' hselects
    rw [UserInfoStorage.selects_profileOf] at hselects
    rw [Collection.getElem?_insert] at hd'
    by_cases hid : id = id'
    · have hself : compare id' id' = .eq := Std.ReflCmp.compare_self
      rw [hid, hself]
      decide
    · rw [if_neg hid] at hd'
      exact hleast id' d' hd' hselects
  rw [userInfoModel, heval]
  exact hmodel

/-- Documents that are not this user's are neither changed nor added. -/
theorem Written.getElem?_iff (h : Written userId model docs docs') {id : String} {d : Doc}
    (hother : d.field FirebaseFieldName.userId ≠ .string userId) :
    docs[id]? = some d ↔ docs'[id]? = some d := by
  obtain ⟨id', d', rfl, huser, -, hown, -⟩ := h.write
  rw [Collection.getElem?_insert]
  by_cases hid : id' = id
  · rw [if_pos hid]
    constructor
    · intro hd
      exact absurd (hown d (hid ▸ hd)) hother
    · intro hd
      exact absurd (Option.some.inj hd ▸ huser) hother
  · rw [if_neg hid]

/-- The query for another user's profile is answered as before. -/
theorem Written.eval_of_ne (h : Written userId model docs docs') (hne : userId' ≠ userId) :
    (UserInfoStorage.profileOf userId').eval docs' =
      (UserInfoStorage.profileOf userId').eval docs := by
  refine Query.eval_congr rfl fun id d hselects => (h.getElem?_iff fun hd => hne ?_).symm
  rw [UserInfoStorage.selects_profileOf] at hselects
  exact Value.string_inj.mp (hselects.symm.trans hd)

/-- A profile that is written where there was none leaves every document as it is. -/
theorem Written.kept_of_none (h : Written userId model docs docs')
    (heval : (UserInfoStorage.profileOf userId).eval docs = []) {id : String} {d : Doc}
    (hd : docs[id]? = some d) : docs'[id]? = some d :=
  (h.getElem?_iff (UserInfoStorage.eval_profileOf_eq_nil_iff.mp heval id d hd)).mp hd

end Written

section Specs

variable {σ : Type}

/-- The profile as `saveUserInfo` stores it. -/
def savedProfile (userId : UserId) (displayName : String) (email phone imageUrl : Option String) :
    UserInfoModel :=
  ⟨userId, displayName, some (email.getD ""), some (phone.getD ""), some (imageUrl.getD "")⟩

/-- The `try` block of `saveUserInfo` writes the profile, or fails and changes nothing. -/
theorem UserInfoStorage.updateOrAdd_written (userId : UserId) (displayName : String)
    (email phone imageUrl : Option String) (s : σ) (w : World) :
    (updateOrAdd userId displayName email phone imageUrl : Action σ Bool).wp World.step
      (fun tr out _ w' =>
        (∃ e, out = .error e ∧ w'.firestore = w.firestore ∧
          ∀ id, ¬ Returned (Writes .users id) tr) ∨
        (out = .ok true ∧ (∃ id, Returned (Writes .users id) tr) ∧
          Written userId (savedProfile userId displayName email phone imageUrl)
            (w.firestore .users) (w'.firestore .users))) s w := by
  unfold updateOrAdd
  rw [wp_bind, wp_get_query]
  refine ⟨.inl ⟨_, rfl, rfl, by simp⟩, ?_⟩
  rw [ends_ok]
  cases heval : (profileOf userId).eval (w.firestore (profileOf userId).collection) with
  | cons doc rest =>
    dsimp only
    rw [wp_bind, wp_update]
    refine ⟨.inl ⟨_, rfl, rfl, by simp⟩, fun _ => .inl ⟨_, rfl, rfl, by simp⟩, fun d hd => ?_⟩
    rw [ends_ok, wp_pure]
    refine .inr ⟨rfl, ⟨doc.id, by simp⟩, ?_⟩
    have hstored := (Query.mem_eval (heval ▸ List.mem_cons_self)).1
    obtain rfl : d = doc.data := Option.some.inj (hd.symm.trans hstored)
    rw [World.setDoc_firestore, Function.update_self]
    refine .of_update heval ?_ (UserInfoModel.fromJson_of_strings userId ?_ ?_ ?_ ?_) <;>
      simp +decide only [updatedFields, Doc.field_merge_cons, Doc.field_merge_nil, Doc.field_set,
        ite_true, ite_false]
  | nil =>
    dsimp only
    rw [wp_bind, wp_add]
    refine ⟨.inl ⟨_, rfl, rfl, by simp⟩, fun id t hnew => ?_⟩
    rw [ends_ok, wp_pure]
    refine .inr ⟨rfl, ⟨id, by simp⟩, ?_⟩
    rw [World.setDoc_firestore, Function.update_self]
    refine .of_add heval hnew ?_ (UserInfoModel.fromJson_of_strings userId ?_ ?_ ?_ ?_) <;>
      rw [Doc.field_resolve] <;> rfl

/-- `saveUserInfo` writes the profile and returns `true`, or changes nothing. -/
theorem UserInfoStorage.saveUserInfo_written (userId : UserId) (displayName : String)
    (email phone imageUrl : Option String) (s : σ) (w : World) :
    (saveUserInfo userId displayName email phone imageUrl : Action σ Bool).wp World.step
      (fun tr out _ w' =>
        (out = .ok false ∧ w'.firestore = w.firestore ∧ ∀ id, ¬ Returned (Writes .users id) tr) ∨
        (out = .ok true ∧ (∃ id, Returned (Writes .users id) tr) ∧
          Written userId (savedProfile userId displayName email phone imageUrl)
            (w.firestore .users) (w'.firestore .users))) s w := by
  unfold saveUserInfo
  refine wp_tryCatch.mpr (wp_mono (updateOrAdd_written _ _ _ _ _ s w) ?_)
  rintro tr out s' w' (⟨e, rfl, hkept, hnone⟩ | ⟨rfl, hwrote, hwritten⟩)
  · rw [ends_error, wp_pure, List.append_nil]
    exact .inl ⟨rfl, hkept, hnone⟩
  · rw [ends_ok]
    exact .inr ⟨rfl, hwrote, hwritten⟩

end Specs

/-- `updateUserInfo` writes the profile with the e-mail address of the current user and returns
`true`, or changes nothing. -/
theorem AuthStateNotifier.updateUserInfo_written (userId : UserId) (displayName : String)
    (phone imageUrl : Option String) (s : Unit) (w : World) :
    (updateUserInfo userId displayName phone imageUrl).wp World.step (fun _ out _ w' =>
      (out ≠ .ok true ∧ w'.firestore = w.firestore) ∨
      (out = .ok true ∧ Written userId (savedProfile userId displayName
        (w.currentUser.bind (·.email)) phone imageUrl)
          (w.firestore .users) (w'.firestore .users))) s w := by
  unfold updateUserInfo Authenticator.email
  rw [wp_bind, wp_setIsLoading, ends_ok]
  rw [wp_bind, wp_bind, wp_currentUser, ends_ok, wp_pure, ends_ok]
  refine wp_bind.mpr (wp_mono (UserInfoStorage.saveUserInfo_written _ _ _ _ _ s _) ?_)
  rintro tr out s' w' (⟨rfl, hkept, -⟩ | ⟨rfl, -, hwritten⟩)
  · rw [ends_ok, wp_bind, wp_setIsLoading, ends_ok, wp_pure]
    exact .inl ⟨by simp, hkept⟩
  · rw [ends_ok, wp_bind, wp_setIsLoading, ends_ok, wp_pure]
    exact .inr ⟨rfl, hwritten⟩

/-- The profile as a first login stores it. -/
def firstProfile (user : FirebaseUser) : UserInfoModel :=
  savedProfile user.uid (user.displayName.getD "") user.email (some (user.phoneNumber.getD ""))
    (some (user.photoURL.getD ""))

/-- `saveUserInfo` of the notifier stores the profile of the current user, or changes nothing. -/
theorem AuthStateNotifier.saveUserInfo_written {user : FirebaseUser} (s : Unit) {w : World}
    (huser : w.currentUser = some user) :
    (saveUserInfo user.uid).wp World.step (fun tr _ _ w' =>
      (w'.firestore = w.firestore ∧ ∀ id, ¬ Returned (Writes .users id) tr) ∨
      ((∃ id, Returned (Writes .users id) tr) ∧
        Written user.uid (firstProfile user) (w.firestore .users) (w'.firestore .users))) s w := by
  unfold saveUserInfo Authenticator.displayName Authenticator.email Authenticator.phone
    Authenticator.imageUrl
  rw [wp_bind, wp_bind, wp_currentUser, ends_ok, wp_pure, ends_ok]
  rw [wp_bind, wp_bind, wp_currentUser, ends_ok, wp_pure, ends_ok]
  rw [wp_bind, wp_bind, wp_currentUser, ends_ok, wp_pure, ends_ok]
  rw [wp_bind, wp_bind, wp_currentUser, ends_ok, wp_pure, ends_ok]
  refine wp_bind.mpr (wp_mono (UserInfoStorage.saveUserInfo_written _ _ _ _ _ s w) ?_)
  rintro tr out s' w' (⟨rfl, hkept, hnone⟩ | ⟨rfl, ⟨id, hwrote⟩, hwritten⟩)
  · rw [ends_ok, wp_pure]
    exact .inl ⟨hkept, by simpa using hnone⟩
  · rw [ends_ok, wp_pure]
    rw [huser] at hwritten
    exact .inr ⟨⟨id, by simpa using hwrote⟩, hwritten⟩

/-- The profile of the current user is stored if none is found, or nothing changes. -/
theorem AuthStateNotifier.createProfile_written {user : FirebaseUser} (s : Unit) {w : World}
    (huser : w.currentUser = some user) :
    (createProfile user.uid).wp World.step (fun tr _ _ w' =>
      (w'.firestore = w.firestore ∧ ∀ id, ¬ Returned (Writes .users id) tr) ∨
      ((∃ id, Returned (Writes .users id) tr) ∧
        (UserInfoStorage.profileOf user.uid).eval (w.firestore .users) = [] ∧
        Written user.uid (firstProfile user) (w.firestore .users) (w'.firestore .users))) s w := by
  rw [createProfile, wp_bind, wp_get_query]
  constructor
  · rw [ends_error]
    exact .inl ⟨rfl, by simp⟩
  rw [ends_ok]
  generalize hdocs : (UserInfoStorage.profileOf user.uid).eval _ = docs
  by_cases hnone : docs = []
  · rw [if_pos hnone]
    refine wp_mono (saveUserInfo_written s huser) ?_
    rintro tr out s' w' (⟨hkept, hnothing⟩ | ⟨⟨id, hwrote⟩, hwritten⟩)
    · exact .inl ⟨hkept, by simpa using hnothing⟩
    · exact .inr ⟨⟨id, by simpa using hwrote⟩, hdocs.trans hnone, hwritten⟩
  · rw [if_neg hnone, wp_pure]
    exact .inl ⟨rfl, by simp⟩

/-- A login stores the profile of a user who signs in and has none, or changes nothing. -/
theorem AuthStateNotifier.loginWithGoogle_written (s : Unit) (w : World) :
    loginWithGoogle.wp World.step (fun tr _ _ w' =>
      (w'.firestore = w.firestore ∧ ∀ id, ¬ Returned (Writes .users id) tr) ∨
      ∃ user, (∀ user', Returned (SignsIn user') tr ↔ user' = user) ∧
        (∃ id, Returned (Writes .users id) tr) ∧
        (UserInfoStorage.profileOf user.uid).eval (w.firestore .users) = [] ∧
        Written user.uid (firstProfile user) (w.firestore .users) (w'.firestore .users)) s w := by
  have hgoogle : ∀ {tr : List AppEvent}, (∀ e ∈ tr, e.call.Google) →
      ∀ id, ¬ Returned (Writes .users id) tr := fun hcalls id =>
    not_returned_of_calls hcalls fun c a hc hwrites => by cases c <;> simp at hc hwrites
  unfold loginWithGoogle
  rw [wp_bind, wp_setIsLoading, ends_ok]
  refine wp_bind.mpr (wp_mono (wp_and (Authenticator.loginWithGoogle_spec s _)
    (wp_calls Authenticator.loginWithGoogle_calls s _)) ?_)
  rintro tr out s' w' ⟨⟨-, -, -, ⟨result, rfl, hresult, rfl, -⟩ | ⟨user, rfl, rfl, huser⟩⟩, hcalls⟩
  · rw [ends_ok, wp_bind, wp_userId, ends_ok, wp_bind, createProfileAfter_of_ne hresult, wp_pure,
      ends_ok, wp_setAuthState]
    exact .inl ⟨rfl, by simpa using hgoogle hcalls⟩
  · have hbefore := hgoogle hcalls
    rw [ends_ok, wp_bind, wp_userId, ends_ok]
    refine wp_bind.mpr (wp_mono (wp_and (createProfile_spec user.uid s' _)
      (createProfile_written s' rfl)) ?_)
    rintro tr' out s'' w' ⟨⟨-, hnobody, -⟩, hwritten⟩
    have hend : (w'.firestore = w.firestore ∧ ∀ id, ¬ Returned (Writes .users id) tr') ∨
        ((∃ id, Returned (Writes .users id) tr') ∧
          (UserInfoStorage.profileOf user.uid).eval (w.firestore .users) = [] ∧
          Written user.uid (firstProfile user) (w.firestore .users) (w'.firestore .users)) :=
      hwritten
    cases out with
    | error e =>
      rw [ends_error]
      refine hend.imp (fun ⟨hkept, hnone⟩ => ⟨hkept, by simp [hbefore, hnone]⟩) ?_
      rintro ⟨⟨id, hwrote⟩, hnone, hwritten⟩
      exact ⟨user, by simp [huser, hnobody], ⟨id, by simp [hwrote]⟩, hnone, hwritten⟩
    | ok _ =>
      rw [ends_ok, wp_setAuthState]
      refine hend.imp (fun ⟨hkept, hnone⟩ => ⟨hkept, by simp [hbefore, hnone]⟩) ?_
      rintro ⟨⟨id, hwrote⟩, hnone, hwritten⟩
      exact ⟨user, by simp [huser, hnobody], ⟨id, by simp [hwrote]⟩, hnone, hwritten⟩

/-- The profile as the upload of a picture stores it. -/
def photoProfile (userId : UserId) (userData : UserInfoModel) (imageUrl : String) : UserInfoModel :=
  savedProfile userId userData.displayName userData.email userData.phone (some imageUrl)

namespace ImageUploadNotifier

/-- The `try` block of a profile picture's upload writes the profile with the URL that it has
fetched, or fails and changes no document. -/
theorem storePhoto_written (file : File) (message : Option String)
    (postSettings : Option (List (PostSettings × Bool))) (userId : UserId)
    (userData : UserInfoModel) (thumbnail : Uint8List) (ratio : ℚ) (fileName : String) (s : Unit)
    (w : World) :
    (storeAndPost file .userImage message postSettings userId (some userData) thumbnail ratio
      fileName).wp World.step (fun tr out _ w' =>
        (∃ e, out = .error e ∧ w'.firestore = w.firestore) ∨
        ∃ url, out = .ok true ∧ Returned (Fetched url) tr ∧
          Written userId (photoProfile userId userData url)
            (w.firestore .users) (w'.firestore .users)) s w := by
  unfold storeAndPost
  rw [wp_bind, wp_putData]
  refine ⟨.inl ⟨_, rfl, rfl⟩, ?_⟩
  rw [ends_ok, wp_bind, wp_putFile]
  refine ⟨.inl ⟨_, rfl, rfl⟩, ?_⟩
  rw [ends_ok, if_pos rfl, wp_bind, wp_get_query]
  refine ⟨.inl ⟨_, rfl, rfl⟩, ?_⟩
  rw [ends_ok, wp_bind, wp_first]
  refine ⟨fun _ => .inl ⟨_, rfl, rfl⟩, fun userInfo hfirst => ?_⟩
  obtain ⟨rest, heval⟩ := List.head?_eq_some_iff.mp hfirst
  rw [ends_ok, wp_bind, wp_getDownloadURL]
  refine ⟨.inl ⟨_, rfl, rfl⟩, fun _ => .inl ⟨_, rfl, rfl⟩, fun _ url => ?_⟩
  rw [ends_ok, wp_bind, wp_update]
  refine ⟨.inl ⟨_, rfl, rfl⟩, fun _ => .inl ⟨_, rfl, rfl⟩, fun d hd => ?_⟩
  rw [ends_ok, wp_pure]
  refine .inr ⟨url, rfl, by simp, ?_⟩
  have hstored := (Query.mem_eval (heval ▸ List.mem_cons_self)).1
  obtain rfl : d = userInfo.data := Option.some.inj (hd.symm.trans hstored)
  rw [World.setDoc_firestore, Function.update_self]
  refine .of_update heval ?_ (UserInfoModel.fromJson_of_strings userId ?_ ?_ ?_ ?_) <;>
    simp +decide only [profileFields, Doc.field_merge_cons, Doc.field_merge_nil, Doc.field_set,
      ite_true, ite_false, Option.map_some, Option.bind_some, Option.getD_some]

/-- The upload of a profile picture writes the profile with the URL that it has fetched and returns
`true`, or changes no document. -/
theorem uploadPhoto_written (file : File) (message : Option String)
    (postSettings : Option (List (PostSettings × Bool))) (userId : UserId)
    (userData : UserInfoModel) (s : Unit) (w : World) :
    (upload file .userImage message postSettings userId (some userData)).wp World.step
      (fun tr out _ w' => (out ≠ .ok true ∧ w'.firestore = w.firestore) ∨
        ∃ url, out = .ok true ∧ Returned (Fetched url) tr ∧
          Written userId (photoProfile userId userData url)
            (w.firestore .users) (w'.firestore .users)) s w := by
  unfold upload
  rw [wp_bind, wp_setLoading, ends_ok]
  refine wp_bind.mpr (wp_mono (thumbnailOf_spec .userImage file s _) ?_)
  rintro tr out s' w' (⟨e, rfl, -, rfl⟩ | ⟨⟨e, rfl⟩ | rfl, -, rfl⟩ | ⟨thumbnail, rfl, -, rfl⟩)
  · exact .inl ⟨by simp, rfl⟩
  · exact .inl ⟨by simp, rfl⟩
  · rw [ends_ok, wp_pure]
    exact .inl ⟨by simp, rfl⟩
  rw [ends_ok, wp_bind, wp_getAspectRatio]
  refine ⟨.inl ⟨by simp, rfl⟩, ?_⟩
  rw [ends_ok, wp_bind, wp_uuidV4]
  intro fileName _
  rw [ends_ok, wp_tryFinally_tryCatch]
  refine wp_mono (storePhoto_written file message postSettings userId userData thumbnail
    thumbnail.aspectRatio fileName s' _) ?_
  rintro tr' out s'' w' (⟨e, rfl, hkept⟩ | ⟨url, rfl, hfetched, hwritten⟩)
  · rw [ends_error]
    exact .inl ⟨by simp, hkept⟩
  · rw [ends_ok]
    exact .inr ⟨url, rfl, by simp [hfetched], hwritten⟩

end ImageUploadNotifier

end TekkGram
