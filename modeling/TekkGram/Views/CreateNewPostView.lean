import TekkGram.Interaction.Since
import TekkGram.Posts.Published

/-!
# Creating a post

The user picks a video or pictures on the main view, which resets the settings and opens a screen to
write the message. The settings belong to no screen: the switches of every open screen show and
change the same ones.
-/

namespace TekkGram

open Interaction

/-- The state of a new `PostSettingsNotifier`. -/
def PostSettingsNotifier.initial : List (PostSettings × Bool) :=
  PostSettings.values.map fun setting => (setting, true)

/-- `setSetting`. -/
def PostSettingsNotifier.setSetting (state : List (PostSettings × Bool)) (setting : PostSettings)
    (value : Bool) : List (PostSettings × Bool) :=
  match state.lookup setting with
  | none => state
  | some existingValue =>
    if existingValue = value then state
    else state.map fun entry => if entry.1 = setting then (setting, value) else entry

/-- What a post shows beside its media: buttons, and the number of its likes. -/
inductive PostControl where
  | likeButton
  | commentButton
  | likesCount
  deriving DecidableEq, Repr

/-- The controls of `PostDetailsView`. -/
def PostDetailsView.controls (post : Post) : List PostControl :=
  (if post.allowsLikes then [.likeButton] else []) ++
    (if post.allowsComments then [.commentButton] else []) ++
      if post.allowsLikes then [.likesCount] else []

namespace CreateNewPost

/-- The media of a screen: `CreateNewPostView` has a video, `CreateNewPostListView` pictures. -/
inductive FileToPost where
  | one (fileToPost : File) (fileType : FileType)
  | list (fileToPost : List File) (fileType : FileType)
  deriving DecidableEq, Repr

/-- A screen with the text of its message. -/
structure Screen where
  fileToPost : FileToPost
  text : String
  deriving DecidableEq, Repr

/-- What a picker returns. -/
inductive Picked where
  | videoFromCamera (video : Option File)
  | videoFromGallery (video : Option File)
  | imageFromCamera (image : Option File)
  | imagesFromGallery (imageList : List File)
  deriving DecidableEq, Repr

/-- The media of the screen that `openCameraOption` opens, if it opens one. -/
def Picked.fileToPost : Picked → Option FileToPost
  | videoFromCamera video => video.map fun videoFile => .one videoFile .video
  | videoFromGallery video => video.map fun videoFile => .one videoFile .video
  | imageFromCamera image => image.map fun imageFile => .list [imageFile] .image
  | imagesFromGallery imageList =>
    let imageFile := imageList.take 4
    if imageFile = [] then none else some (.list imageFile .image)

/-- The files that were picked. -/
def Picked.files : Picked → List File
  | videoFromCamera video => video.toList
  | videoFromGallery video => video.toList
  | imageFromCamera image => image.toList
  | imagesFromGallery imageList => imageList

/-- The value of `postSettingsProvider`, and the open screens, the topmost first. -/
structure State where
  postSettings : List (PostSettings × Bool)
  screens : List Screen
  deriving DecidableEq, Repr

/-- No screen is open. -/
def State.initial : State := ⟨PostSettingsNotifier.initial, []⟩

/-- What happens on the main view and on the topmost screen. An upload ends while its screen is
there, or after it has gone. -/
inductive Event where
  | picked (result : Picked)
  | edit (text : String)
  | switch (postSetting : PostSettings) (isOn : Bool)
  | uploaded (isUploaded mounted : Bool)
  | back
  deriving DecidableEq, Repr

/-- The handler of an event. -/
def State.step (s : State) : Event → State
  | .picked result =>
    match result.fileToPost with
    | none => s
    | some fileToPost => ⟨PostSettingsNotifier.initial, ⟨fileToPost, ""⟩ :: s.screens⟩
  | .edit text =>
    match s.screens with
    | [] => s
    | screen :: screens => { s with screens := { screen with text := text } :: screens }
  | .switch postSetting isOn =>
    { s with postSettings := PostSettingsNotifier.setSetting s.postSettings postSetting isOn }
  | .uploaded isUploaded mounted =>
    if isUploaded && mounted then { s with screens := s.screens.tail } else s
  | .back => { s with screens := s.screens.tail }

/-- The state after these events. -/
def after (events : List Event) : State := events.foldl State.step .initial

/-- The send button of a screen: it is enabled by a message, and needs a login. -/
def Screen.press (postSettings : List (PostSettings × Bool)) (userId : Option UserId)
    (screen : Screen) : Option WriteOperation :=
  if screen.text = "" then none
  else userId.map fun userId =>
    match screen.fileToPost with
    | .one fileToPost fileType =>
      .upload fileToPost fileType (some screen.text) (some postSettings) userId none
    | .list fileToPost fileType =>
      .uploadMultipleImageFiles fileToPost (some screen.text) (some postSettings) fileType userId

/-- The send button of the topmost screen. -/
def State.press (s : State) (userId : Option UserId) : Option WriteOperation :=
  s.screens.head?.bind (Screen.press s.postSettings userId)

/-- The position that an event gives to a switch: a pick that opens a screen turns it on. -/
def Event.turns (postSetting : PostSettings) : Event → Option Bool
  | .picked result => result.fileToPost.map fun _ => true
  | .switch setting isOn => if setting = postSetting then some isOn else none
  | _ => none

/-- The position to which a switch was turned last. -/
def turnedOn (events : List Event) (postSetting : PostSettings) : Bool :=
  ((events.filterMap (Event.turns postSetting)).getLast?).getD true

/-- A video, or one to four pictures, that were picked together. -/
inductive FileToPost.PickedIn (events : List Event) : FileToPost → Prop
  | video (fileToPost : File) {result : Picked} (hpicked : .picked result ∈ events)
      (hfile : fileToPost ∈ result.files) : PickedIn events (.one fileToPost .video)
  | images (fileToPost : List File) {result : Picked} (hpicked : .picked result ∈ events)
      (hfiles : fileToPost <+: result.files) (hsome : fileToPost ≠ [])
      (hfour : fileToPost.length ≤ 4) : PickedIn events (.list fileToPost .image)

section Settings

/-- Each setting is found. -/
theorem lookup_map (values : PostSettings → Bool) (setting : PostSettings) :
    (PostSettings.values.map fun s => (s, values s)).lookup setting = some (values setting) := by
  cases setting <;> rfl

/-- The notifier changes one of the settings. -/
theorem setSetting_map (values : PostSettings → Bool) (setting : PostSettings) (value : Bool) :
    PostSettingsNotifier.setSetting (PostSettings.values.map fun s => (s, values s)) setting value =
      PostSettings.values.map fun s => (s, Function.update values setting value s) := by
  rw [PostSettingsNotifier.setSetting, lookup_map]
  dsimp only
  by_cases hsame : values setting = value
  · rw [if_pos hsame, ← hsame, Function.update_eq_self]
  · rw [if_neg hsame, List.map_map]
    refine List.map_congr_left fun s _ => ?_
    by_cases hs : s = setting
    · rw [Function.comp_apply, if_pos hs, hs, Function.update_self]
    · rw [Function.comp_apply, if_neg hs, Function.update_of_ne hs]

end Settings

section Run

variable {events : List Event} {e : Event}

theorem after_snoc : after (events ++ [e]) = (after events).step e := by
  rw [after, List.foldl_append]
  rfl

/-- An event that turns a switch decides its position, and the others keep it. -/
theorem turnedOn_snoc (setting : PostSettings) : turnedOn (events ++ [e]) setting =
    (e.turns setting).getD (turnedOn events setting) := by
  rw [turnedOn, getLast?_filterMap_snoc]
  cases e.turns setting <;> rfl

/-- The settings are the positions of the switches. -/
theorem postSettings_after (events : List Event) : (after events).postSettings =
    PostSettings.values.map fun setting => (setting, turnedOn events setting) := by
  induction events using List.reverseRecOn with
  | nil => rfl
  | append_singleton events e ih =>
    rw [after_snoc]
    simp only [turnedOn_snoc]
    cases e with
    | picked result =>
      rw [State.step]
      simp only [Event.turns]
      cases result.fileToPost with
      | none => exact ih
      | some fileToPost => rfl
    | edit text =>
      rw [State.step]
      split <;> exact ih
    | switch postSetting isOn =>
      rw [State.step, ih, setSetting_map]
      refine List.map_congr_left fun setting _ => ?_
      by_cases hsetting : setting = postSetting
      · rw [hsetting, Function.update_self, Event.turns, if_pos rfl, Option.getD_some]
      · rw [Function.update_of_ne hsetting, Event.turns, if_neg (Ne.symm hsetting),
          Option.getD_none]
    | uploaded isUploaded mounted =>
      rw [State.step]
      split <;> exact ih
    | back => exact ih

theorem FileToPost.PickedIn.snoc {fileToPost : FileToPost} (h : fileToPost.PickedIn events) :
    fileToPost.PickedIn (events ++ [e]) := by
  cases h with
  | video fileToPost hpicked hfile =>
    exact .video fileToPost (List.mem_append_left _ hpicked) hfile
  | images fileToPost hpicked hfiles hsome hfour =>
    exact .images fileToPost (List.mem_append_left _ hpicked) hfiles hsome hfour

/-- A pick opens its screen with files of the pick. -/
theorem Picked.pickedIn {result : Picked} {fileToPost : FileToPost}
    (h : result.fileToPost = some fileToPost) (hpicked : .picked result ∈ events) :
    fileToPost.PickedIn events := by
  cases result with
  | videoFromCamera video =>
    obtain ⟨videoFile, rfl, rfl⟩ := Option.map_eq_some_iff.mp h
    exact .video videoFile hpicked (List.mem_singleton_self _)
  | videoFromGallery video =>
    obtain ⟨videoFile, rfl, rfl⟩ := Option.map_eq_some_iff.mp h
    exact .video videoFile hpicked (List.mem_singleton_self _)
  | imageFromCamera image =>
    obtain ⟨imageFile, rfl, rfl⟩ := Option.map_eq_some_iff.mp h
    exact .images [imageFile] hpicked (List.prefix_refl _) (List.cons_ne_nil _ _)
      (Nat.le_add_left 1 3)
  | imagesFromGallery imageList =>
    rw [Picked.fileToPost] at h
    split at h
    · cases h
    · rename_i hsome
      cases h
      exact .images _ hpicked (List.take_prefix _ _) hsome (List.length_take_le _ _)

/-- Every open screen has files of one pick. -/
theorem pickedIn_of_mem {screen : Screen} (h : screen ∈ (after events).screens) :
    screen.fileToPost.PickedIn events := by
  induction events using List.reverseRecOn generalizing screen with
  | nil => cases h
  | append_singleton events e ih =>
    rw [after_snoc] at h
    cases e with
    | picked result =>
      rw [State.step] at h
      cases hresult : result.fileToPost with
      | none =>
        rw [hresult] at h
        exact (ih h).snoc
      | some fileToPost =>
        rw [hresult] at h
        rcases List.mem_cons.mp h with rfl | h
        · exact Picked.pickedIn hresult (List.mem_append_right _ (List.mem_singleton_self _))
        · exact (ih h).snoc
    | edit text =>
      rw [State.step] at h
      split at h
      · exact (ih h).snoc
      · rename_i top screens hscreens
        rcases List.mem_cons.mp h with rfl | h
        · have htop : top ∈ (after events).screens := hscreens ▸ List.mem_cons_self ..
          exact (ih htop).snoc
        · exact (ih (hscreens ▸ List.mem_cons_of_mem _ h)).snoc
    | switch postSetting isOn => exact (ih h).snoc
    | uploaded isUploaded mounted =>
      rw [State.step] at h
      split at h
      · exact (ih (List.mem_of_mem_tail h)).snoc
      · exact (ih h).snoc
    | back => exact (ih (List.mem_of_mem_tail h)).snoc

end Run

/-- What the send button uploads: the media of a screen, which were picked together, with the
message of this screen. -/
inductive Uploads (events : List Event) (userId : UserId)
    (postSettings : Option (List (PostSettings × Bool))) : WriteOperation → Prop
  | video (fileToPost : File) (text : String)
      (hpicked : (FileToPost.one fileToPost .video).PickedIn events) (htext : text ≠ "") :
      Uploads events userId postSettings
      (.upload fileToPost .video (some text) postSettings userId none)
  | images (fileToPost : List File) (text : String)
      (hpicked : (FileToPost.list fileToPost .image).PickedIn events) (htext : text ≠ "") :
      Uploads events userId postSettings
      (.uploadMultipleImageFiles fileToPost (some text) postSettings .image userId)

/-- The send button uploads the media of its screen with the settings that the switches show. -/
theorem State.uploads_of_press {events : List Event} {userId : Option UserId} {op : WriteOperation}
    (h : (after events).press userId = some op) : ∃ userId', userId = some userId' ∧
      Uploads events userId'
        (some (PostSettings.values.map fun setting => (setting, turnedOn events setting))) op := by
  obtain ⟨screen, hhead, hpress⟩ := Option.bind_eq_some_iff.mp h
  have hpicked := pickedIn_of_mem (List.mem_of_mem_head? hhead)
  rw [Screen.press, postSettings_after] at hpress
  split at hpress
  · cases hpress
  · rename_i htext
    obtain ⟨userId', rfl, rfl⟩ := Option.map_eq_some_iff.mp hpress
    refine ⟨userId', rfl, ?_⟩
    obtain ⟨fileToPost, text⟩ := screen
    dsimp only at hpicked htext ⊢
    cases hpicked with
    | video fileToPost hevent hfile => exact .video fileToPost text (.video _ hevent hfile) htext
    | images fileToPost hevent hfiles hsome hfour =>
      exact .images fileToPost text (.images _ hevent hfiles hsome hfour) htext

end CreateNewPost

open CreateNewPost

/-- Whatever happens on the screens before the send button is pressed, and whatever operations of
several devices interleave with the upload and after it, with any failures: if the upload returns
`true`, its post is on the home tab, and it has the buttons whose switches were on. -/
theorem controls_of_steps {events : List Event} {userId : Option UserId} {op : WriteOperation}
    (hpress : (after events).press userId = some op) {runs : List (Nat × WriteOperation)}
    {n : Network} {moves : List DeviceMove} {P : DevicePool}
    (h : Pool.Steps Network.step (fun _ _ _ => True) (operationPool runs n) moves P) {i : Nat}
    {device : Nat} (hrun : runs[i]? = some (device, op))
    (hdone : P.threads[i]? = some (.done (.ok true, ()))) :
    (∃ userId' postSettings, userId = some userId' ∧ Uploads events userId' postSettings op) ∧
      ∃ postId post, Published runs (n.firestore .posts) (P.state.firestore .posts)
          (effectsIn runs moves) i op postId post ∧
        (.likeButton ∈ PostDetailsView.controls post ↔ turnedOn events .allowLikes = true) ∧
        (.likesCount ∈ PostDetailsView.controls post ↔ turnedOn events .allowLikes = true) ∧
        (.commentButton ∈ PostDetailsView.controls post ↔
          turnedOn events .allowComments = true) := by
  obtain ⟨userId', huserId, huploads⟩ := State.uploads_of_press hpress
  have hcreates : op.creates = some .posts := by cases huploads <;> rfl
  have hsettings : op.postSettings =
      some (PostSettings.values.map fun setting => (setting, turnedOn events setting)) := by
    cases huploads <;> rfl
  obtain ⟨postId, post, hpublished⟩ := exists_published h hrun hcreates hdone
  have hkept := Option.some.inj (hpublished.settings.symm.trans hsettings)
  have hlikes : post.allowsLikes = turnedOn events .allowLikes := by
    rw [Post.allowsLikes, hkept, lookup_map, Option.getD_some]
  have hcomments : post.allowsComments = turnedOn events .allowComments := by
    rw [Post.allowsComments, hkept, lookup_map, Option.getD_some]
  refine ⟨⟨userId', _, huserId, huploads⟩, postId, post, hpublished, ?_⟩
  simp only [PostDetailsView.controls, hlikes, hcomments]
  cases turnedOn events .allowLikes <;> cases turnedOn events .allowComments <;> decide

/-- Two pictures are picked, and likes are turned off for them. -/
def withoutLikes : List Event :=
  [.picked (.imagesFromGallery [⟨"f"⟩, ⟨"g"⟩]), .switch .allowLikes false, .edit "m"]

/-- What the send button then uploads. -/
def uploadWithoutLikes : WriteOperation :=
  .uploadMultipleImageFiles [⟨"f"⟩, ⟨"g"⟩] (some "m")
    (some [(.allowLikes, false), (.allowComments, true)]) .image "u"

/-- The post has a button for comments and none for likes. -/
theorem controls_of_steps_withoutLikes : ∃ moves P postId post,
    Pool.Steps Network.step (fun _ _ _ => True)
      (operationPool [(0, uploadWithoutLikes)] (.ofWorld .initial)) moves P ∧
    Published [(0, uploadWithoutLikes)] ((Network.ofWorld .initial).firestore .posts)
      (P.state.firestore .posts) (effectsIn [(0, uploadWithoutLikes)] moves) 0
      uploadWithoutLikes postId post ∧
    .likeButton ∉ PostDetailsView.controls post ∧
    .commentButton ∈ PostDetailsView.controls post := by
  have hexec : (Pool.exec Network.step Network.working (fun _ _ => true) (List.replicate 29 0) []
      (operationPool [(0, uploadWithoutLikes)] (.ofWorld .initial))).any (fun r =>
        returnedTrueAt r.2 0) = true := by decide +kernel
  obtain ⟨moves, P, hsteps, htest⟩ := Pool.exec_any (fun _ _ _ _ => trivial) hexec
  have hdone := returnedTrueAt_iff.mp htest
  have hpress : (after withoutLikes).press (some "u") = some uploadWithoutLikes := rfl
  obtain ⟨-, postId, post, hpublished, hlikes, -, hcomments⟩ :=
    controls_of_steps hpress hsteps rfl hdone
  exact ⟨moves, P, postId, post, hsteps, hpublished,
    fun hmem => absurd (hlikes.mp hmem) (by decide), hcomments.mpr (by decide)⟩

end TekkGram
