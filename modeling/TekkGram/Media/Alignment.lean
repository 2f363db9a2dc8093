import TekkGram.Media.Operation
import TekkGram.Model.Working

/-!
# Alignment and completeness of the media lists

The readers of a document use one index in all of its lists. That is right when the
lists are the columns of an album. A failure of storage between two extensions leaves lists
of different lengths, and the entries of later files move against each other; a file
that cannot be decoded leaves the lists aligned but incomplete.
-/

namespace TekkGram

open Interaction Async

/-- The entries at one index of the lists all come from this file, and both of its objects
are stored and served by the listed URLs. -/
def MediaLists.ItemOf (w : World) (userId folder : String) (l : MediaLists) (i : Nat)
    (file : File) : Prop :=
  ∃ e : MediaEntry, e.file = file ∧
    l.thumbnailUrlList[i]? = some e.thumbnailUrl ∧ l.originalUrlList[i]? = some e.fileUrl ∧
    l.thumbnailAspectRatioList[i]? = some e.thumbnail.aspectRatio ∧
    l.thumbnailStorageIdList[i]? = some e.storageId ∧
    l.originalStorageIdList[i]? = some e.storageId ∧ e.StoredIn w userId folder

/-- The lists have one common length, and every index belongs to one input file. -/
structure MediaLists.Aligned (w : World) (userId folder : String) (files : List File)
    (l : MediaLists) : Prop where
  originalUrls : l.originalUrlList.length = l.thumbnailUrlList.length
  ratios : l.thumbnailAspectRatioList.length = l.thumbnailUrlList.length
  fileNames : l.fileNameList.length = l.thumbnailUrlList.length
  thumbnailIds : l.thumbnailStorageIdList.length = l.thumbnailUrlList.length
  originalIds : l.originalStorageIdList.length = l.thumbnailUrlList.length
  item : ∀ i < l.thumbnailUrlList.length, ∃ file ∈ files, l.ItemOf w userId folder i file

/-- Every input file is listed at its own index, with both objects stored. -/
structure MediaLists.Complete (w : World) (userId folder : String) (files : List File)
    (l : MediaLists) : Prop where
  thumbnailUrls : l.thumbnailUrlList.length = files.length
  originalUrls : l.originalUrlList.length = files.length
  item : ∀ i file, files[i]? = some file → l.ItemOf w userId folder i file

section Album

variable {w : World} {userId folder : String} {files : List File} {album : List MediaEntry}

/-- The columns of an album belong, index by index, to the file of the entry. -/
theorem MediaLists.itemOf_ofAlbum (hstored : ∀ e ∈ album, e.StoredIn w userId folder) {i : Nat}
    {e : MediaEntry} (he : album[i]? = some e) :
    (ofAlbum album).ItemOf w userId folder i e.file := by
  refine ⟨e, rfl, ?_, ?_, ?_, ?_, ?_, hstored e (List.mem_of_getElem? he)⟩ <;>
    simp only [ofAlbum, List.getElem?_map, he, Option.map_some]

/-- The columns of an album of input files are aligned. -/
theorem MediaLists.aligned_ofAlbum (hstored : ∀ e ∈ album, e.StoredIn w userId folder)
    (hfiles : ∀ e ∈ album, e.file ∈ files) : (ofAlbum album).Aligned w userId folder files := by
  constructor <;> try simp only [ofAlbum, List.length_map]
  intro i hi
  have he : album[i]? = some album[i] := List.getElem?_eq_getElem hi
  exact ⟨album[i].file, hfiles _ (List.getElem_mem hi), itemOf_ofAlbum hstored he⟩

/-- The columns of an album of all input files are complete. -/
theorem MediaLists.complete_ofAlbum (hstored : ∀ e ∈ album, e.StoredIn w userId folder)
    (hfiles : album.map MediaEntry.file = files) :
    (ofAlbum album).Complete w userId folder files := by
  subst hfiles
  refine ⟨by simp only [ofAlbum, List.length_map], by simp only [ofAlbum, List.length_map], ?_⟩
  intro i file hfile
  obtain ⟨e, he, rfl⟩ := Option.map_eq_some_iff.mp ((List.getElem?_map ..).symm.trans hfile)
  exact itemOf_ofAlbum hstored he

end Album

namespace ChatMessageView

/-- The thumbnails that the view lays out. -/
def itemCount (chatData : ChatModel) : Nat := chatData.thumbnailUrl.length

/-- The thumbnail that the view shows at an index. -/
def thumbnailAt (chatData : ChatModel) (index : Nat) : Option String :=
  chatData.thumbnailUrl[index]?

/-- The picture that a tap at an index opens; out of range is an error. -/
def enlargedAt (chatData : ChatModel) (index : Nat) : Option String := chatData.fileUrl[index]?

/-- Every tap opens the original of the file whose thumbnail was tapped. -/
def OpensTapped (w : World) (userId folder : String) (files : List File)
    (chatData : ChatModel) : Prop :=
  ∀ index < itemCount chatData, ∃ file ∈ files, ∃ e : MediaEntry, e.file = file ∧
    e.StoredIn w userId folder ∧ thumbnailAt chatData index = some e.thumbnailUrl ∧
    enlargedAt chatData index = some e.fileUrl

end ChatMessageView

/-- A document whose lists are aligned, also as the chat view reads it. -/
def Doc.WellListed (w : World) (userId folder : String) (files : List File) (d : Doc) : Prop :=
  (∃ l, MediaLists.ofDoc d = some l ∧ l.Aligned w userId folder files) ∧
    ∀ chatData, ChatModel.ofJson d = some chatData →
      ChatMessageView.OpensTapped w userId folder files chatData

/-- A cast with a fallback agrees with the plain cast where that one succeeds. -/
theorem Value.orElse_of_cast {α : Type} {cast : Value → Option α} {fallback a : α} {v : Value}
    (hnull : cast .null = none) (h : cast v = some a) : v.orElse cast fallback = some a := by
  unfold Value.orElse
  rw [if_neg, h]
  rintro rfl
  cases hnull.symm.trans h

/-- The chat view reads the URL lists of the document. -/
theorem ChatModel.urls_of_ofDoc {d : Doc} {chatData : ChatModel} {l : MediaLists}
    (h : ChatModel.ofJson d = some chatData) (hl : MediaLists.ofDoc d = some l) :
    chatData.thumbnailUrl = l.thumbnailUrlList ∧ chatData.fileUrl = l.originalUrlList := by
  simp only [MediaLists.ofDoc, Option.bind_eq_bind, Option.pure_def, Option.bind_eq_some_iff,
    Option.some.injEq] at hl
  obtain ⟨_, -, _, -, _, -, _, -, thumbnailUrls, hthumbnails, originalUrls, horiginals, rfl⟩ := hl
  simp only [ChatModel.ofJson, Option.bind_eq_bind, Option.pure_def, Option.bind_eq_some_iff,
    Option.some.injEq] at h
  obtain ⟨_, -, _, -, _, -, _, -, _, -, _, h₁, _, h₂, _, -, _, -, _, -, _, -, rfl⟩ := h
  rw [Value.orElse_of_cast rfl hthumbnails] at h₁
  rw [Value.orElse_of_cast rfl horiginals] at h₂
  exact ⟨(Option.some.inj h₁).symm, (Option.some.inj h₂).symm⟩

/-- Aligned lists open what was tapped. -/
theorem MediaLists.Aligned.opensTapped {w : World} {userId folder : String} {files : List File}
    {d : Doc} {l : MediaLists} (h : l.Aligned w userId folder files)
    (hl : MediaLists.ofDoc d = some l) {chatData : ChatModel}
    (hd : ChatModel.ofJson d = some chatData) :
    ChatMessageView.OpensTapped w userId folder files chatData := by
  obtain ⟨hthumbnails, horiginals⟩ := ChatModel.urls_of_ofDoc hd hl
  intro index hindex
  rw [ChatMessageView.itemCount, hthumbnails] at hindex
  obtain ⟨file, hfile, e, he, hthumbnail, horiginal, -, -, -, hstored⟩ := h.item index hindex
  refine ⟨file, hfile, e, he, hstored, ?_, ?_⟩
  · rw [ChatMessageView.thumbnailAt, hthumbnails, hthumbnail]
  · rw [ChatMessageView.enlargedAt, horiginals, horiginal]

section Runs

variable {op : MediaOperation} {w w' w₁ : World} {tr : List AppEvent} {path : CollectionPath}
  {id : String} {d : Doc} {l : MediaLists}

theorem MediaEntry.StoredIn.congr {userId folder : String} {e : MediaEntry}
    (h : e.StoredIn w₁ userId folder) (hstorage : w'.storage = w₁.storage)
    (hurls : w'.urls = w₁.urls) : e.StoredIn w' userId folder :=
  ⟨by rw [hstorage]; exact h.thumbnail, by rw [hstorage]; exact h.original,
    by rw [hurls]; exact h.thumbnailUrl, by rw [hurls]; exact h.fileUrl⟩

/-- Without a failure of storage the written lists are the columns of an album. -/
theorem Listed.exists_album (h : Listed op w w' tr path id d l w₁)
    (hraised : ¬ Raised Call.Stores tr) : ∃ album : List MediaEntry, l = .ofAlbum album ∧
      (∀ e ∈ album, e.StoredIn w' op.userId op.folder) ∧
      (album.map MediaEntry.file).Sublist op.files := by
  obtain ⟨album, hl, hstored, hsub⟩ := h.gathered.album hraised
  exact ⟨album, hl, fun e he => (hstored e he).2.congr h.storage h.urls, hsub⟩

/-- The written document is aligned exactly when no call of storage failed. -/
theorem Listed.wellListed_iff (h : Listed op w w' tr path id d l w₁) :
    d.WellListed w' op.userId op.folder op.files ↔ ¬ Raised Call.Stores tr := by
  constructor
  · rintro ⟨⟨l', hl', haligned⟩, -⟩ hraised
    obtain rfl : l = l' := Option.some.inj (h.lists.symm.trans hl')
    have hlt := h.gathered.interrupted hraised
    have horiginals := haligned.originalUrls
    have hratios := haligned.ratios
    omega
  · intro hraised
    obtain ⟨album, rfl, hstored, hsub⟩ := h.exists_album hraised
    have haligned : (MediaLists.ofAlbum album).Aligned w' op.userId op.folder op.files :=
      MediaLists.aligned_ofAlbum hstored fun e he => hsub.subset (List.mem_map_of_mem he)
    exact ⟨⟨_, h.lists, haligned⟩, fun chatData hd => haligned.opensTapped h.lists hd⟩

/-- The written lists are complete exactly when every file was decoded and no call of storage
failed. -/
theorem Listed.complete_iff (h : Listed op w w' tr path id d l w₁) :
    l.Complete w' op.userId op.folder op.files ↔
      ¬ Returned Undecoded tr ∧ ¬ Raised Call.Stores tr := by
  constructor
  · intro hcomplete
    have hthumbnails := hcomplete.thumbnailUrls
    have horiginals := hcomplete.originalUrls
    have hratios := h.gathered.ratios_le
    refine ⟨fun hundecoded => ?_, fun hraised => ?_⟩
    · have hlt := h.gathered.skipped hundecoded
      omega
    · have hlt := h.gathered.interrupted hraised
      by_cases hundecoded : Returned Undecoded tr
      · have hlt' := h.gathered.skipped hundecoded
        omega
      · have heq := h.gathered.decoded hundecoded
        omega
  · rintro ⟨hundecoded, hraised⟩
    have hlength := h.gathered.decoded hundecoded
    obtain ⟨album, rfl, hstored, hsub⟩ := h.exists_album hraised
    refine MediaLists.complete_ofAlbum hstored (hsub.eq_of_length ?_)
    simpa only [MediaLists.ofAlbum, List.length_map] using hlength

end Runs

/-- The lists of a written document are aligned exactly when no upload to storage and no fetch of
a URL failed while it was made. -/
theorem wellListed_iff_of_run {op : MediaOperation} {w w' : World} {tr : List AppEvent}
    {out : Except Exc Bool} {s : Unit} (h : Runs World.step w op.program tr (out, s) w')
    {path : CollectionPath} {id : String} (hwrote : Returned (Writes path id) tr) :
    (∃ d, (w'.firestore path)[id]? = some d ∧ d.WellListed w' op.userId op.folder op.files) ↔
      ¬ Raised Call.Stores tr := by
  rcases MediaOperation.run_cases h with ⟨-, hnone⟩ | ⟨-, path', id', d, l, w₁, hlisted⟩
  · exact absurd hwrote (hnone path id)
  · obtain ⟨rfl, rfl⟩ := (hlisted.writes path id).mp hwrote
    rw [← hlisted.wellListed_iff]
    constructor
    · rintro ⟨d', hd', hwell⟩
      obtain rfl : d = d' := Option.some.inj (hlisted.stored.symm.trans hd')
      exact hwell
    · intro hwell
      exact ⟨d, hlisted.stored, hwell⟩

/-- A picture sent on a working backend. -/
theorem wellListed_iff_of_run_picture :
    ∃ w' tr out s d, Runs World.step World.initial
      (MediaOperation.sendMessage "g" "a" "b" "" [⟨"a.jpg"⟩]).program tr (out, s) w' ∧
      (w'.firestore (.chat "g"))["1"]? = some d ∧
      d.WellListed w' "a" chatFolder [⟨"a.jpg"⟩] := by
  have hexec : ((MediaOperation.sendMessage "g" "a" "b" "" [⟨"a.jpg"⟩]).program.exec World.step
      World.working 0 World.initial).any (fun r => Returned (Writes (.chat "g") "1") r.1 &&
        decide (¬ Raised Call.Stores r.1)) = true := by decide +kernel
  obtain ⟨tr, ⟨out, s⟩, w', hrun, hcheck⟩ := Program.exec_any hexec
  obtain ⟨hwrote, hraised⟩ := (Bool.and_eq_true _ _).mp hcheck
  obtain ⟨d, hd, hwell⟩ := (wellListed_iff_of_run hrun (of_decide_eq_true hwrote)).mpr
    (of_decide_eq_true hraised)
  exact ⟨w', tr, out, s, d, hrun, hd, hwell⟩

/-- When the original of the first of two files is not stored, the message shows two thumbnails
and has one picture to open. -/
theorem not_wellListed_of_failed_original :
    ¬ ∀ groupChatId currentUserId receiverId message files w w' tr out s path id,
      Runs World.step w (MediaOperation.sendMessage groupChatId currentUserId receiverId message
        files).program tr (out, s) w' → Returned (Writes path id) tr →
      ∃ d, (w'.firestore path)[id]? = some d ∧ d.WellListed w' currentUserId chatFolder files := by
  intro hall
  have hexec : ((MediaOperation.sendMessage "g" "a" "b" "" [⟨"a.jpg"⟩, ⟨"b.jpg"⟩]).program.exec
      World.step (World.failingAt 11) 0 World.initial).any (fun r =>
        Returned (Writes (.chat "g") "1") r.1 &&
          ((r.2.2.firestore (.chat "g"))["1"]?.bind MediaLists.ofDoc).any fun l =>
            l.originalUrlList.length ≠ l.thumbnailUrlList.length) = true := by decide +kernel
  obtain ⟨tr, ⟨out, s⟩, w', hrun, hcheck⟩ := Program.exec_any hexec
  obtain ⟨hwrote, hlists⟩ := (Bool.and_eq_true _ _).mp hcheck
  obtain ⟨l, hl, hne⟩ := (Option.any_eq_true _ _).mp hlists
  obtain ⟨d, hd, hl⟩ := Option.bind_eq_some_iff.mp hl
  obtain ⟨d', hd', ⟨l', hl', haligned⟩, -⟩ :=
    hall _ _ _ _ _ _ _ _ _ _ _ _ hrun (of_decide_eq_true hwrote)
  obtain rfl : d = d' := Option.some.inj (hd.symm.trans hd')
  obtain rfl : l = l' := Option.some.inj (hl.symm.trans hl')
  exact of_decide_eq_true hne haligned.originalUrls

/-- An operation that returned `true` listed every file with both of its objects exactly when
every file was decoded and no upload to storage and no fetch of a URL failed. -/
theorem complete_iff_of_run {op : MediaOperation} {w w' : World} {tr : List AppEvent} {s : Unit}
    (h : Runs World.step w op.program tr (.ok true, s) w') :
    (∃ path id d l, Returned (Writes path id) tr ∧ (w'.firestore path)[id]? = some d ∧
      MediaLists.ofDoc d = some l ∧ l.Complete w' op.userId op.folder op.files) ↔
      ¬ Returned Undecoded tr ∧ ¬ Raised Call.Stores tr := by
  rcases MediaOperation.run_cases h with ⟨hout, -⟩ | ⟨-, path, id, d, l, w₁, hlisted⟩
  · cases hout
  · rw [← hlisted.complete_iff]
    constructor
    · rintro ⟨path', id', d', l', hwrote, hd', hl', hcomplete⟩
      obtain ⟨rfl, rfl⟩ := (hlisted.writes path' id').mp hwrote
      obtain rfl : d = d' := Option.some.inj (hlisted.stored.symm.trans hd')
      obtain rfl : l = l' := Option.some.inj (hlisted.lists.symm.trans hl')
      exact hcomplete
    · intro hcomplete
      exact ⟨path, id, d, l, (hlisted.writes path id).mpr ⟨rfl, rfl⟩, hlisted.stored,
        hlisted.lists, hcomplete⟩

/-- A post of two pictures on a working backend. -/
theorem complete_iff_of_run_pictures :
    ∃ (w' : World) (tr : List AppEvent) (s : Unit) (path : CollectionPath) (id : String)
      (d : Doc) (l : MediaLists), Runs World.step World.initial
      (MediaOperation.uploadMultipleImageFiles [⟨"a.jpg"⟩, ⟨"b.jpg"⟩] none (some []) .image
        "u").program tr (.ok true, s) w' ∧
      (w'.firestore path)[id]? = some d ∧ MediaLists.ofDoc d = some l ∧
      l.Complete w' "u" "images" [⟨"a.jpg"⟩, ⟨"b.jpg"⟩] := by
  have hexec : ((MediaOperation.uploadMultipleImageFiles [⟨"a.jpg"⟩, ⟨"b.jpg"⟩] none (some [])
      .image "u").program.exec World.step World.working 0 World.initial).any (fun r =>
        r.2.1.1 = .ok true &&
          decide (¬ Returned Undecoded r.1 ∧ ¬ Raised Call.Stores r.1)) = true := by decide +kernel
  obtain ⟨tr, ⟨out, s⟩, w', hrun, hcheck⟩ := Program.exec_any hexec
  obtain ⟨hout, hclean⟩ := (Bool.and_eq_true _ _).mp hcheck
  obtain rfl : out = .ok true := of_decide_eq_true hout
  obtain ⟨path, id, d, l, -, hd, hl, hcomplete⟩ :=
    (complete_iff_of_run hrun).mpr (of_decide_eq_true hclean)
  exact ⟨w', tr, s, path, id, d, l, hrun, hd, hl, hcomplete⟩

/-- An undecodable file is dropped, and the upload reports success all the same. -/
theorem not_complete_of_undecodable :
    ¬ ∀ (op : MediaOperation) (w w' : World) (tr : List AppEvent) (s : Unit), op.files ≠ [] →
      Runs World.step w op.program tr (.ok true, s) w' →
      ∃ path id d l, Returned (Writes path id) tr ∧ (w'.firestore path)[id]? = some d ∧
        MediaLists.ofDoc d = some l ∧ l.Complete w' op.userId op.folder op.files := by
  intro hall
  have hexec : ((MediaOperation.uploadMultipleImageFiles [⟨"a.jpg"⟩] none (some []) .image
      "u").program.exec World.step World.undecodable 0 World.initial).any (fun r =>
        r.2.1.1 = .ok true && Returned Undecoded r.1) = true := by decide +kernel
  obtain ⟨tr, ⟨out, s⟩, w', hrun, hcheck⟩ := Program.exec_any hexec
  obtain ⟨hout, hundecoded⟩ := (Bool.and_eq_true _ _).mp hcheck
  obtain rfl : out = .ok true := of_decide_eq_true hout
  obtain ⟨path', id', d', l', hwrote, hd', hl', hcomplete⟩ :=
    hall (.uploadMultipleImageFiles [⟨"a.jpg"⟩] none (some []) .image "u") _ w' tr s
      (List.cons_ne_nil _ _) hrun
  rcases MediaOperation.run_cases hrun with ⟨hfalse, -⟩ | ⟨-, path, id, d, l, w₁, hlisted⟩
  · cases hfalse
  · obtain ⟨rfl, rfl⟩ := (hlisted.writes path' id').mp hwrote
    obtain rfl : d = d' := Option.some.inj (hlisted.stored.symm.trans hd')
    obtain rfl : l = l' := Option.some.inj (hlisted.lists.symm.trans hl')
    exact (hlisted.complete_iff.mp hcomplete).1 (of_decide_eq_true hundecoded)

end TekkGram
