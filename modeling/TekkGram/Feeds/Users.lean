import TekkGram.Feeds.Posts

/-!
# The lists of users

A user finds others in a list of all profiles, or searches them by name. The search counts the
matching profiles as soon as a snapshot arrives, so that it emits nothing while one profile is
broken. Nobody is shown to themselves.
-/

namespace TekkGram

open Interaction Async

/-- All profiles. -/
def Query.allUsers : Query := { collection := .users }

/-- The profile of a document. -/
def DocSnapshot.user (doc : DocSnapshot) : Option UserInfoModel := UserInfoModel.fromMap doc.data

/-- What `usersListInfoProvider` emits for a snapshot. -/
def usersListInfo (docs : List DocSnapshot) : Lazy.Sequence UserInfoModel :=
  .mapped (docs.map DocSnapshot.user)

/-- The name of the user contains the term, whatever the case. -/
def UserInfoModel.matches (toLowerCase : String → String) (searchTerm : String)
    (user : UserInfoModel) : Bool :=
  Dart.contains (toLowerCase user.displayName) (toLowerCase searchTerm)

/-- What `userSearchProvider` emits for a snapshot: nothing if the length that it logs throws. -/
def userSearch (toLowerCase : String → String) (searchTerm : String) (docs : List DocSnapshot) :
    Option (Lazy.Sequence UserInfoModel) :=
  let users : Lazy.Sequence UserInfoModel :=
    .filtered (.mapped (docs.map DocSnapshot.user)) (UserInfoModel.matches toLowerCase searchTerm)
  users.length.map fun _ => users

/-- What a list of users shows. -/
inductive UsersShown where
  | nothing
  | items (users : List UserInfoModel)
  deriving DecidableEq, Repr

/-- The list of emitted users, as `UsersListView` and `UserSearchListView` build it. -/
def UsersView.build (authUser : Option UserId) (userList : Lazy.Sequence UserInfoModel) :
    Option UsersShown := do
  let isEmpty ← userList.isEmpty
  if isEmpty then return .nothing
  else do
    let userList ← (Lazy.Sequence.filtered userList fun user => some user.userId ≠ authUser).toList
    return .items userList

/-- The users that `UserSearchListView` asks for: all for an empty term. -/
def UserSearchListView.users (toLowerCase : String → String) (searchTerm : String)
    (docs : List DocSnapshot) : Option (Lazy.Sequence UserInfoModel) :=
  if searchTerm = "" then some (usersListInfo docs) else userSearch toLowerCase searchTerm docs

/-- The users that match a term; all do if it is empty. -/
def matchingUsers (toLowerCase : String → String) (searchTerm : String)
    (users : List UserInfoModel) : List UserInfoModel :=
  if searchTerm = "" then users
  else users.filter (UserInfoModel.matches toLowerCase searchTerm)

/-- The lists show the others among the matching users, and a note if nobody matches. -/
def UsersShown.ofMatching (authUser : Option UserId) (users : List UserInfoModel) : UsersShown :=
  if users = [] then .nothing else .items (users.filter fun user => some user.userId ≠ authUser)

section Views

variable {docs : List DocSnapshot} {users : List UserInfoModel}

/-- The search emits users exactly if every profile can be read. -/
theorem userSearch_eq_none_iff (toLowerCase : String → String) (searchTerm : String) :
    userSearch toLowerCase searchTerm docs = none ↔ ∃ doc ∈ docs, doc.user = none := by
  rw [userSearch, Option.map_eq_none_iff, Lazy.Sequence.length_filtered, Option.map_eq_none_iff,
    Lazy.Sequence.toList_eq_none_iff]
  exact List.mem_map

/-- Emitted users that can be read are shown, but for the user themselves. -/
theorem UsersView.build_of_toList {xs : Lazy.Sequence UserInfoModel} (h : xs.toList = some users)
    (authUser : Option UserId) :
    UsersView.build authUser xs = some (.ofMatching authUser users) := by
  rw [UsersView.build, Lazy.Sequence.isEmpty_of_toList h, Lazy.Sequence.toList_filtered, h]
  cases users <;> rfl

/-- Of profiles that can be read the list shows the others that match. -/
theorem userSearchListView_build (toLowerCase : String → String) (searchTerm : String)
    (authUser : Option UserId) (h : docs.map DocSnapshot.user = users.map some) :
    (UserSearchListView.users toLowerCase searchTerm docs).bind (UsersView.build authUser) =
      some (.ofMatching authUser (matchingUsers toLowerCase searchTerm users)) := by
  have hall : (usersListInfo docs).toList = some users := Lazy.Sequence.toList_eq_some_iff.mpr h
  by_cases hterm : searchTerm = ""
  · rw [UserSearchListView.users, if_pos hterm, matchingUsers, if_pos hterm]
    exact UsersView.build_of_toList hall authUser
  · have hmatching : (Lazy.Sequence.filtered (usersListInfo docs)
        (UserInfoModel.matches toLowerCase searchTerm)).toList =
          some (users.filter (UserInfoModel.matches toLowerCase searchTerm)) := by
      rw [Lazy.Sequence.toList_filtered, hall, Option.map_some]
    rw [UserSearchListView.users, if_neg hterm, matchingUsers, if_neg hterm]
    have hemitted : userSearch toLowerCase searchTerm docs = some (.filtered (usersListInfo docs)
        (UserInfoModel.matches toLowerCase searchTerm)) := by
      rw [userSearch]
      exact congrArg (Option.map _) (Lazy.Sequence.length_of_toList hmatching)
    rw [hemitted]
    exact UsersView.build_of_toList hmatching authUser

/-- A broken profile leaves the search without anything to show, and the list with an error. -/
theorem userSearchListView_broken (toLowerCase : String → String) (searchTerm : String)
    (authUser : Option UserId) (h : ∃ doc ∈ docs, doc.user = none) :
    (UserSearchListView.users toLowerCase searchTerm docs).bind (UsersView.build authUser) =
      none := by
  by_cases hterm : searchTerm = ""
  · have hthrows : (usersListInfo docs).toList = none :=
      Lazy.Sequence.toList_eq_none_iff.mpr (List.mem_map.mpr h)
    have hsome : docs.isEmpty = false := by
      obtain ⟨doc, hdoc, -⟩ := h
      exact List.isEmpty_eq_false_iff.mpr (List.ne_nil_of_mem hdoc)
    have hempty : (usersListInfo docs).isEmpty = some false := by
      rw [usersListInfo, Lazy.Sequence.isEmpty, List.isEmpty_map, hsome]
    rw [UserSearchListView.users, if_pos hterm, Option.bind_some, UsersView.build, hempty,
      Lazy.Sequence.toList_filtered, hthrows]
    rfl
  · rw [UserSearchListView.users, if_neg hterm, (userSearch_eq_none_iff ..).mpr h]
    rfl

end Views

/-- The lists of users show the profiles of a collection to everybody but their owners. -/
structure UserLists (toLowerCase : String → String) (docs : Collection)
    (users : List UserInfoModel) : Prop where
  every : ∀ (id : String) (d : Doc), docs[id]? = some d →
    ∃ user ∈ users, UserInfoModel.fromMap d = some user
  stored : ∀ user ∈ users, ∃ (id : String) (d : Doc), docs[id]? = some d ∧
    UserInfoModel.fromMap d = some user
  shown : ∀ authUser searchTerm, (UserSearchListView.users toLowerCase searchTerm
      (Query.allUsers.eval docs)).bind (UsersView.build authUser) =
    some (.ofMatching authUser (matchingUsers toLowerCase searchTerm users))

/-- The lists show every stored profile that matches, to everybody but its owner, or nothing at all
while one profile is broken. -/
theorem userLists_or_broken (toLowerCase : String → String) (docs : Collection) :
    (∃ users, UserLists toLowerCase docs users) ∨
      (∃ (id : String) (d : Doc), docs[id]? = some d ∧ UserInfoModel.fromMap d = none) ∧
        ∀ authUser searchTerm, (UserSearchListView.users toLowerCase searchTerm
          (Query.allUsers.eval docs)).bind (UsersView.build authUser) = none := by
  have hmem : ∀ doc, doc ∈ Query.allUsers.eval docs ↔ docs[doc.id]? = some doc.data := by
    intro doc
    rw [Query.mem_eval_iff rfl]
    exact and_iff_left rfl
  by_cases hbroken : ∃ doc ∈ Query.allUsers.eval docs, doc.user = none
  · refine .inr ⟨?_, fun authUser searchTerm =>
      userSearchListView_broken toLowerCase searchTerm authUser hbroken⟩
    obtain ⟨doc, hdoc, huser⟩ := hbroken
    exact ⟨doc.id, doc.data, (hmem doc).mp hdoc, huser⟩
  · obtain ⟨users, husers⟩ := Lazy.Sequence.exists_map_some (mt List.mem_map.mp hbroken)
    have hshown : ∀ user, user ∈ users ↔
        ∃ doc ∈ Query.allUsers.eval docs, doc.user = some user := by
      intro user
      rw [← List.mem_map_of_injective (Option.some_injective UserInfoModel), ← husers,
        List.mem_map]
    refine .inl ⟨users, fun id d hd => ?_, fun user huser => ?_, fun authUser searchTerm =>
      userSearchListView_build toLowerCase searchTerm authUser husers⟩
    · have hdoc := (hmem ⟨id, d⟩).mpr hd
      obtain ⟨user, huser⟩ := Option.ne_none_iff_exists'.mp fun h => hbroken ⟨_, hdoc, h⟩
      exact ⟨user, (hshown user).mpr ⟨_, hdoc, huser⟩, huser⟩
    · obtain ⟨doc, hdoc, hdecode⟩ := (hshown user).mp huser
      exact ⟨doc.id, doc.data, (hmem doc).mp hdoc, hdecode⟩

/-- Whatever the operations of the app have interleaved, with any failures: both lists of users show
every stored profile that matches, to everybody but its owner. -/
theorem userLists_of_steps (toLowerCase : String → String) {runs : List (Nat × AppOperation)}
    {n : Network} (hn : EveryDocumentStored n.firestore)
    {moves : List DeviceMove} {P : AppDevices}
    (h : AppSteps runs n moves P) :
    ∃ users, UserLists toLowerCase (P.state.firestore .users) users := by
  refine (userLists_or_broken toLowerCase _).resolve_right ?_
  rintro ⟨⟨id, d, hd, hbroken⟩, -⟩
  obtain ⟨user, huser⟩ := ((everyDocumentStored_of_steps hn h .users id d hd).2 rfl).fromMap
  cases hbroken.symm.trans huser

/-- A user logs in for the first time. -/
def firstLogin : List (Nat × AppOperation) := [(0, .operation (.auth .loginWithGoogle))]

/-- Everybody else is shown the new profile. -/
theorem userLists_of_steps_firstLogin : ∃ moves P,
    AppSteps firstLogin (.ofWorld .initial) moves P ∧
    ∃ users, UserLists String.toLower (P.state.firestore .users) users ∧
      ⟨"u", "U", some "", some "", some ""⟩ ∈ users := by
  have hexec : (Pool.exec Network.step Network.working (fun _ _ => true) (List.replicate 14 0) []
      (appPool firstLogin (.ofWorld .initial))).any
      (fun r => (r.2.state.firestore .users)["12"]? =
        some (userInfoPayload "u" (some "U") none none none)) = true := by decide +kernel
  obtain ⟨moves, P, hsteps, hprofile⟩ := Pool.exec_any (fun _ _ _ _ => trivial) hexec
  obtain ⟨users, husers⟩ := userLists_of_steps String.toLower (n := .ofWorld .initial)
    (fun path id d hd => by simp [Network.ofWorld, World.initial] at hd) hsteps
  obtain ⟨user, hmem, hread⟩ := husers.every "12" _ (of_decide_eq_true hprofile)
  cases hread
  exact ⟨moves, P, hsteps, users, husers, hmem⟩

end TekkGram
