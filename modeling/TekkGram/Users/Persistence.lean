import TekkGram.Interaction.Session
import TekkGram.Model.Working
import TekkGram.Users.SavedProfile

/-!
# What is saved to a profile is read back

Logins, logouts, updates and uploads of profile pictures run one after another, and whichever of
them saved the profile last determines what is read.
-/

namespace TekkGram

open Interaction Async

/-- The operations of a session, with their arguments. -/
inductive ProfileOperation where
  | loginWithGoogle
  | logOut
  | updateUserInfo (userId : UserId) (displayName : String) (phone imageUrl : Option String)
  | uploadPhoto (file : File) (message : Option String)
      (postSettings : Option (List (PostSettings × Bool))) (userId : UserId)
      (userData : UserInfoModel)
  deriving DecidableEq, Repr

/-- The program of an operation; those that save a profile return whether they did. -/
def ProfileOperation.program :
    ProfileOperation → Program (Fallible Exc Ans) (Except Exc (Option Bool) × Unit)
  | .loginWithGoogle => (AuthStateNotifier.loginWithGoogle >>= fun _ => pure none) ()
  | .logOut => (AuthStateNotifier.logOut >>= fun _ => pure none) ()
  | .updateUserInfo userId displayName phone imageUrl =>
    (AuthStateNotifier.updateUserInfo userId displayName phone imageUrl >>=
      fun saved => pure (some saved)) ()
  | .uploadPhoto file message postSettings userId userData =>
    (ImageUploadNotifier.upload file .userImage message postSettings userId (some userData) >>=
      fun saved => pure (some saved)) ()

/-- A completed operation of a session. -/
abbrev ProfileStep :=
  Completed World ProfileOperation (Fallible Exc Ans) (Except Exc (Option Bool) × Unit)

/-- An update or upload returned `true`, and this is what it was to save. -/
def Saved (model : UserInfoModel) (step : ProfileStep) : Prop :=
  step.result.1 = .ok (some true) ∧
    match step.op with
    | .loginWithGoogle | .logOut => False
    | .updateUserInfo userId displayName phone imageUrl =>
      model =
        savedProfile userId displayName (step.before.currentUser.bind (·.email)) phone imageUrl
    | .uploadPhoto _ _ _ userId userData =>
      ∃ url, Returned (Fetched url) step.trace ∧ model = photoProfile userId userData url

/-- A login of this user stored a profile. -/
def CreatedFor (user : FirebaseUser) (step : ProfileStep) : Prop :=
  step.op = .loginWithGoogle ∧ Returned (SignsIn user) step.trace ∧
    ∃ id, Returned (Writes .users id) step.trace

/-- The user an operation is about. -/
def ProfileOperation.Concerns (op : ProfileOperation) (tr : List AppEvent) (userId : UserId) :
    Prop :=
  match op with
  | .loginWithGoogle => ∃ user, Returned (SignsIn user) tr ∧ user.uid = userId
  | .logOut => False
  | .updateUserInfo userId' _ _ _ => userId' = userId
  | .uploadPhoto _ _ _ userId' _ => userId' = userId

/-- What an operation can do to the profiles: nothing, save the profile that it was given, or store
the first profile of a user who signs in. -/
inductive ProfileStep.Effect (step : ProfileStep) (docs docs' : Collection) : Prop
  | kept (hdocs : docs' = docs) (hsaved : ∀ model, ¬ Saved model step)
      (hcreated : ∀ user, ¬ CreatedFor user step)
  | saved (model : UserInfoModel) (hsaved : ∀ model', Saved model' step ↔ model' = model)
      (hcreated : ∀ user, ¬ CreatedFor user step)
      (hconcerns : step.op.Concerns step.trace model.userId)
      (hlogin : step.op ≠ .loginWithGoogle) (hwritten : Written model.userId model docs docs')
  | created (user : FirebaseUser) (hsaved : ∀ model, ¬ Saved model step)
      (hcreated : ∀ user', CreatedFor user' step ↔ user' = user)
      (hconcerns : step.op.Concerns step.trace user.uid)
      (hnone : (UserInfoStorage.profileOf user.uid).eval docs = [])
      (hwritten : Written user.uid (firstProfile user) docs docs')

/-- An operation that stores nothing and does not succeed has no effect on the profiles. -/
theorem ProfileStep.Effect.of_kept {step : ProfileStep} {docs : Collection}
    (hresult : step.result.1 ≠ .ok (some true)) (hlogin : step.op ≠ .loginWithGoogle) :
    step.Effect docs docs :=
  .kept rfl (fun _ hsaved => hresult hsaved.1) fun _ hcreated => hlogin hcreated.1

theorem map_some_ne {out : Except Exc Bool} (h : out ≠ .ok true) :
    out.map some ≠ .ok (some true) := by
  rintro he
  cases out with
  | error e => cases he
  | ok saved => exact h (congrArg Except.ok (Option.some.inj (Except.ok.inj he)))

/-- Signing out stores nothing. -/
theorem AuthStateNotifier.logOut_firestore (s : Unit) (w : World) :
    (AuthStateNotifier.logOut : Action Unit Unit).wp World.step
      (fun _ _ _ w' => w'.firestore = w.firestore) s w := by
  unfold AuthStateNotifier.logOut Authenticator.logOut
  rw [wp_bind, wp_setIsLoading, ends_ok, wp_bind, wp_bind, wp_firebaseSignOut]
  refine ⟨rfl, ?_⟩
  rw [ends_ok, wp_googleSignOut]
  refine ⟨rfl, ?_⟩
  rw [ends_ok, wp_setAuthState]
  rfl

/-- Every run of an operation has one of these effects. -/
theorem ProfileOperation.effect {op : ProfileOperation} {w w' : World} {tr : List AppEvent}
    {out : Except Exc (Option Bool) × Unit} (hrun : Runs World.step w op.program tr out w') :
    ProfileStep.Effect ⟨w, op, tr, out⟩ (w.firestore .users) (w'.firestore .users) := by
  obtain ⟨out, s⟩ := out
  cases op with
  | loginWithGoogle =>
    obtain ⟨out, hlogin, rfl⟩ := runs_map hrun
    have hresult : out.map (fun _ => (none : Option Bool)) ≠ .ok (some true) := by
      cases out <;> simp [Except.map]
    obtain ⟨hkept, hnone⟩ | ⟨user, huser, hwrote, hnone, hwritten⟩ :=
      (AuthStateNotifier.loginWithGoogle_written () w).elim hlogin
    · rw [hkept]
      exact .kept rfl (fun _ hsaved => hresult hsaved.1) fun _ ⟨_, _, id, hwrote⟩ => hnone id hwrote
    · refine .created user (fun _ hsaved => hresult hsaved.1) (fun user' => ?_)
        ⟨user, (huser user).mpr rfl, rfl⟩ hnone hwritten
      exact ⟨fun hcreated => (huser user').mp hcreated.2.1,
        fun heq => ⟨rfl, (huser user').mpr heq, hwrote⟩⟩
  | logOut =>
    obtain ⟨out, hlogOut, rfl⟩ := runs_map hrun
    have hresult : out.map (fun _ => (none : Option Bool)) ≠ .ok (some true) := by
      cases out <;> simp [Except.map]
    have hkept : w'.firestore = w.firestore :=
      (AuthStateNotifier.logOut_firestore () w).elim hlogOut
    rw [hkept]
    exact .of_kept hresult (by simp)
  | updateUserInfo userId displayName phone imageUrl =>
    obtain ⟨out, hupdate, rfl⟩ := runs_map hrun
    obtain ⟨hout, hkept⟩ | ⟨rfl, hwritten⟩ :=
      (AuthStateNotifier.updateUserInfo_written userId displayName phone imageUrl () w).elim hupdate
    · rw [hkept]
      exact .of_kept (map_some_ne hout) (by simp)
    · refine .saved (savedProfile userId displayName (w.currentUser.bind (·.email)) phone imageUrl)
        (fun model => ?_) (fun _ hcreated => by cases hcreated.1) rfl (by simp) hwritten
      exact ⟨fun hsaved => hsaved.2, fun heq => ⟨rfl, heq⟩⟩
  | uploadPhoto file message postSettings userId userData =>
    obtain ⟨out, hupload, rfl⟩ := runs_map hrun
    have htrace := (ImageUploadNotifier.uploadPhoto_trace file message postSettings userId
      (some userData) () w).elim hupload
    obtain ⟨hout, hkept⟩ | ⟨url, rfl, hfetched, hwritten⟩ :=
      (ImageUploadNotifier.uploadPhoto_written file message postSettings userId userData
        () w).elim hupload
    · rw [hkept]
      exact .of_kept (map_some_ne hout) (by simp)
    · refine .saved (photoProfile userId userData url) (fun model => ?_)
        (fun _ hcreated => by cases hcreated.1) rfl (by simp) hwritten
      constructor
      · rintro ⟨-, url', hurl, rfl⟩
        rw [htrace.fetched url' url hurl hfetched]
      · rintro rfl
        exact ⟨rfl, url, hfetched, rfl⟩

/-- An operation changes documents of the users it concerns only, and a login changes none. -/
structure ProfileOperation.KeepsOthers (op : ProfileOperation) (tr : List AppEvent)
    (docs docs' : Collection) : Prop where
  others : ∀ (id : String) (d : Doc),
    (∀ userId, op.Concerns tr userId → d.field FirebaseFieldName.userId ≠ .string userId) →
      (docs[id]? = some d ↔ docs'[id]? = some d)
  login : op = .loginWithGoogle → ∀ (id : String) (d : Doc), docs[id]? = some d →
    docs'[id]? = some d

theorem ProfileStep.Effect.keepsOthers {step : ProfileStep} {docs docs' : Collection}
    (h : step.Effect docs docs') : step.op.KeepsOthers step.trace docs docs' := by
  cases h with
  | kept hdocs hsaved hcreated =>
    rw [hdocs]
    exact ⟨fun _ _ _ => Iff.rfl, fun _ _ _ hd => hd⟩
  | saved model hsaved hcreated hconcerns hlogin hwritten =>
    exact ⟨fun id d hother => hwritten.getElem?_iff (hother _ hconcerns),
      fun hop => absurd hop hlogin⟩
  | created user hsaved hcreated hconcerns hnone hwritten =>
    exact ⟨fun id d hother => hwritten.getElem?_iff (hother _ hconcerns),
      fun _ id d hd => hwritten.kept_of_none hnone hd⟩

/-- An update or upload has saved this user's profile. -/
def SavedFor (userId : UserId) (step : ProfileStep) : Prop :=
  ∃ model, Saved model step ∧ model.userId = userId

/-- This is what the last update or upload that returned `true` was to save for a user. -/
def LastSaved (userId : UserId) (model : UserInfoModel) : List ProfileStep → Prop :=
  Since (fun _ step => Saved model step ∧ model.userId = userId) fun step => ¬ SavedFor userId step

/-- What is read of a user's profile after a session: what was saved last; else the profile that was
there at the start; else the one that a login has stored; else none. -/
structure ReadsBack (userId : UserId) (start : Collection) (past : List ProfileStep)
    (docs : Collection) : Prop where
  saved : ∀ model, LastSaved userId model past → userInfoModel userId docs = some model
  kept : (∀ step ∈ past, ¬ SavedFor userId step) →
    (UserInfoStorage.profileOf userId).eval start ≠ [] →
    userInfoModel userId docs = userInfoModel userId start ∧
      (UserInfoStorage.profileOf userId).eval docs ≠ []
  created : (∀ step ∈ past, ¬ SavedFor userId step) →
    (UserInfoStorage.profileOf userId).eval start = [] →
    ∀ step ∈ past, ∀ user, CreatedFor user step → user.uid = userId →
      userInfoModel userId docs = some (firstProfile user)
  none : (∀ step ∈ past, ¬ SavedFor userId step) →
    (UserInfoStorage.profileOf userId).eval start = [] →
    (∀ step ∈ past, ∀ user, CreatedFor user step → user.uid ≠ userId) →
      (UserInfoStorage.profileOf userId).eval docs = []

theorem userInfoModel_of_eval_nil {userId : UserId} {docs : Collection}
    (h : (UserInfoStorage.profileOf userId).eval docs = []) : userInfoModel userId docs = none := by
  rw [userInfoModel, h]
  rfl

section Steps

variable {userId : UserId} {start docs docs' : Collection} {past : List ProfileStep}
  {step : ProfileStep}

theorem lastSaved_snoc {model : UserInfoModel} : LastSaved userId model (past ++ [step]) ↔
    (Saved model step ∧ model.userId = userId) ∨
      (LastSaved userId model past ∧ ¬ SavedFor userId step) := since_snoc

/-- An operation that neither saves nor creates this user's profile keeps what is read. -/
theorem ReadsBack.keep (h : ReadsBack userId start past docs)
    (heval : (UserInfoStorage.profileOf userId).eval docs' =
      (UserInfoStorage.profileOf userId).eval docs) (hsaved : ¬ SavedFor userId step)
    (hcreated : ∀ user, CreatedFor user step → user.uid ≠ userId) :
    ReadsBack userId start (past ++ [step]) docs' := by
  have hread : userInfoModel userId docs' = userInfoModel userId docs := by
    rw [userInfoModel, heval]
    rfl
  have hbefore : (∀ s ∈ past ++ [step], ¬ SavedFor userId s) → ∀ s ∈ past, ¬ SavedFor userId s :=
    fun hall s hs => hall s (List.mem_append_left _ hs)
  refine ⟨fun model hlast => ?_, fun hall hstart => ?_, fun hall hstart s hs user huser hid => ?_,
    fun hall hstart hnone => ?_⟩
  · rw [hread]
    obtain ⟨hnow, hid⟩ | ⟨hpast, -⟩ := lastSaved_snoc.mp hlast
    · exact absurd ⟨model, hnow, hid⟩ hsaved
    · exact h.saved model hpast
  · rw [hread, heval]
    exact h.kept (hbefore hall) hstart
  · rw [hread]
    rcases List.mem_append.mp hs with hs | hs
    · exact h.created (hbefore hall) hstart s hs user huser hid
    · obtain rfl := List.mem_singleton.mp hs
      exact absurd hid (hcreated user huser)
  · rw [heval]
    exact h.none (hbefore hall) hstart fun s hs => hnone s (List.mem_append_left _ hs)

/-- After a save the saved profile is read. -/
theorem ReadsBack.save {model : UserInfoModel}
    (hsaved : ∀ model', Saved model' step ↔ model' = model)
    (hwritten : Written model.userId model docs docs') :
    ReadsBack model.userId start (past ++ [step]) docs' := by
  have hnow : SavedFor model.userId step := ⟨model, (hsaved model).mpr rfl, rfl⟩
  have hall : ¬ ∀ s ∈ past ++ [step], ¬ SavedFor model.userId s := fun hall =>
    hall step (by simp) hnow
  refine ⟨fun model' hlast => ?_, fun h => absurd h hall, fun h => absurd h hall,
    fun h => absurd h hall⟩
  obtain ⟨hmodel, -⟩ | ⟨-, hnot⟩ := lastSaved_snoc.mp hlast
  · rw [(hsaved model').mp hmodel]
    exact hwritten.read
  · exact absurd hnow hnot

/-- After a login that stores a profile this profile is read: there was none before. -/
theorem ReadsBack.create {user : FirebaseUser} (h : ReadsBack user.uid start past docs)
    (hsaved : ¬ SavedFor user.uid step)
    (hcreated : ∀ user', CreatedFor user' step ↔ user' = user)
    (hnone : (UserInfoStorage.profileOf user.uid).eval docs = [])
    (hwritten : Written user.uid (firstProfile user) docs docs') :
    ReadsBack user.uid start (past ++ [step]) docs' := by
  have hunread := userInfoModel_of_eval_nil hnone
  have hbefore : (∀ s ∈ past ++ [step], ¬ SavedFor user.uid s) →
      ∀ s ∈ past, ¬ SavedFor user.uid s := fun hall s hs => hall s (List.mem_append_left _ hs)
  refine ⟨fun model hlast => ?_, fun hall hstart => ?_, fun hall hstart s hs user' huser hid => ?_,
    fun hall hstart hnobody => ?_⟩
  · obtain ⟨hnow, hid⟩ | ⟨hpast, -⟩ := lastSaved_snoc.mp hlast
    · exact absurd ⟨model, hnow, hid⟩ hsaved
    · cases hunread.symm.trans (h.saved model hpast)
  · exact absurd hnone (h.kept (hbefore hall) hstart).2
  · rcases List.mem_append.mp hs with hs | hs
    · cases hunread.symm.trans (h.created (hbefore hall) hstart s hs user' huser hid)
    · obtain rfl := List.mem_singleton.mp hs
      rw [(hcreated user').mp huser]
      exact hwritten.read
  · exact absurd rfl (hnobody step (by simp) user ((hcreated user).mpr rfl))

/-- One operation carries the readings of every user on. -/
theorem ReadsBack.next (h : ReadsBack userId start past docs) (heffect : step.Effect docs docs') :
    ReadsBack userId start (past ++ [step]) docs' := by
  cases heffect with
  | kept hdocs hsaved hcreated =>
    refine h.keep (by rw [hdocs]) ?_ fun user huser => absurd huser (hcreated user)
    rintro ⟨model, hmodel, -⟩
    exact hsaved model hmodel
  | saved model hsaved hcreated hconcerns hlogin hwritten =>
    by_cases hid : userId = model.userId
    · subst hid
      exact .save hsaved hwritten
    · refine h.keep (hwritten.eval_of_ne hid) ?_ fun user huser => absurd huser (hcreated user)
      rintro ⟨model', hmodel, rfl⟩
      exact hid (by rw [(hsaved model').mp hmodel])
  | created user hsaved hcreated hconcerns hnone hwritten =>
    have hnot : ¬ SavedFor userId step := fun ⟨model, hmodel, _⟩ => hsaved model hmodel
    by_cases hid : userId = user.uid
    · subst hid
      exact h.create hnot hcreated hnone hwritten
    · refine h.keep (hwritten.eval_of_ne hid) hnot ?_
      rintro user' huser rfl
      exact hid (by rw [(hcreated user').mp huser])

end Steps

/-- From any profiles and after any session, every user's profile reads as it was saved last, or as
it was at the start, or as a login has first stored it; and the next operation leaves the documents
of other users as they are, and a login all of them. -/
theorem readsBack_of_session {w₀ w : World} {past : List ProfileStep}
    (h : Session World.step ProfileOperation.program (fun _ _ => True) w₀ past w) :
    (∀ userId, ReadsBack userId (w₀.firestore .users) past (w.firestore .users)) ∧
      ∀ op tr out w', Runs World.step w (ProfileOperation.program op) tr out w' →
        op.KeepsOthers tr (w.firestore .users) (w'.firestore .users) := by
  constructor
  · intro userId
    refine h.invariant
      (fun past w => ReadsBack userId (w₀.firestore .users) past (w.firestore .users)) ?_ ?_
    · exact ⟨fun _ hlast => absurd hlast not_since_nil, fun _ hstart => ⟨rfl, hstart⟩,
        fun _ _ _ hmem => absurd hmem List.not_mem_nil, fun _ hstart _ => hstart⟩
    · intro past w op tr out w' hreads _ hrun
      exact hreads.next (ProfileOperation.effect hrun)
  · intro op tr out w' hrun
    exact (ProfileOperation.effect hrun).keepsOthers

/-- A first login, and the upload of a picture with the fields of a form. -/
def pictureUpload : ProfileOperation :=
  .uploadPhoto ⟨"f"⟩ none none "u" ⟨"u", "V", none, some "1", none⟩

/-- The fields of the form are read back, with the URL of the picture. -/
theorem readsBack_of_session_picture : ∃ past w,
    Session World.step ProfileOperation.program (fun _ _ => True) World.initial past w ∧
      past.map (·.op) = [.loginWithGoogle, pictureUpload] ∧
      ∃ url, userInfoModel "u" (w.firestore .users) =
        some ⟨"u", "V", some "", some "1", some url⟩ := by
  have hexec : (ProfileOperation.loginWithGoogle.program.exec World.step World.working 0
      World.initial).any (fun r => (pictureUpload.program.exec World.step World.working 0
        r.2.2).any fun r => decide (r.2.1.1 = .ok (some true)) &&
          decide (Returned (Fetched "user_image/6") r.1)) = true := by decide +kernel
  obtain ⟨tr, out, w, hlogin, hcheck⟩ := Program.exec_any hexec
  obtain ⟨tr', out', w', hupload, hcheck⟩ := Program.exec_any hcheck
  obtain ⟨hresult, hfetched⟩ := (Bool.and_eq_true _ _).mp hcheck
  have hsession : Session World.step ProfileOperation.program (fun _ _ => True) World.initial
      ([⟨World.initial, .loginWithGoogle, tr, out⟩] ++ [⟨w, pictureUpload, tr', out'⟩]) w' :=
    .snoc (.single hlogin trivial) hupload trivial
  have hsaved : Saved ⟨"u", "V", some "", some "1", some "user_image/6"⟩
      ⟨w, pictureUpload, tr', out'⟩ :=
    ⟨of_decide_eq_true hresult, "user_image/6", of_decide_eq_true hfetched, rfl⟩
  exact ⟨_, w', hsession, rfl, "user_image/6", ((readsBack_of_session hsession).1 "u").saved _
    (since_snoc.mpr (.inl ⟨hsaved, rfl⟩))⟩

end TekkGram
