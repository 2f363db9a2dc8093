import TekkGram.Access.Owners

/-!
# What others do leaves a user's things alone

As long as only others are at work, whatever they do, what a user has posted and stored stays as it
is, and nothing appears under the user's name. Of the user's comments and likes, those on posts of
the others may go with the posts.
-/

namespace TekkGram

open Interaction

/-- What is a user's is as it was before, and nothing more is the user's. Comments and likes may be
lost. -/
structure Untouched (userId : UserId) (Lost : Doc → Prop) (before after : Network) : Prop where
  media : ∀ ref : Reference, ref.userId = userId → after.storage ref = before.storage ref
  nothingNew : ∀ (path : CollectionPath) (id : String) (d : Doc), path.isContent = true →
    AuthoredBy userId d → (after.firestore path)[id]? = some d →
      (before.firestore path)[id]? = some d
  kept : ∀ (path : CollectionPath) (id : String) (d : Doc), path.isContent = true →
    AuthoredBy userId d → (before.firestore path)[id]? = some d →
      (after.firestore path)[id]? = some d ∨ path ≠ .posts ∧ Lost d

theorem Untouched.refl {userId : UserId} {Lost : Doc → Prop} (n : Network) :
    Untouched userId Lost n n where
  media _ _ := rfl
  nothingNew _ _ _ _ _ hd := hd
  kept _ _ _ _ _ hd := .inl hd

theorem Untouched.trans {userId : UserId} {Lost : Doc → Prop} {n₁ n₂ n₃ : Network}
    (h₁ : Untouched userId Lost n₁ n₂) (h₂ : Untouched userId Lost n₂ n₃) :
    Untouched userId Lost n₁ n₃ where
  media ref href := (h₂.media ref href).trans (h₁.media ref href)
  nothingNew path id d hpath hauthor hd :=
    h₁.nothingNew path id d hpath hauthor (h₂.nothingNew path id d hpath hauthor hd)
  kept path id d hpath hauthor hd := by
    rcases h₁.kept path id d hpath hauthor hd with hd | hlost
    · exact h₂.kept path id d hpath hauthor hd
    · exact .inr hlost

/-- A write changes or deletes the document `id` of a collection. -/
def Write.Touches (path : CollectionPath) (id : String) : Write → Prop
  | .set path' id' _ => path' = path ∧ id' = id
  | .delete path' id' => path' = path ∧ id' = id

/-- A call may change or delete the document `id` of a collection, if there is one. -/
def Call.Touches (path : CollectionPath) (id : String) : Call → Prop
  | .update path' id' _ => path' = path ∧ id' = id
  | .delete path' id' => path' = path ∧ id' = id
  | .commit writes => ∃ write ∈ writes, write.Touches path id
  | _ => False

section Step

variable {stored : CollectionPath → String → Doc → Prop} {actor userId : UserId} {w w' : World}
  {c : Call} {r : Fallible Exc Ans c} {path path' : CollectionPath} {id id' : String} {d d' : Doc}

theorem World.getElem?_setDoc_of_ne (h : ¬ (path' = path ∧ id' = id)) :
    ((w.setDoc path' id' d').firestore path)[id]? = (w.firestore path)[id]? := by
  rw [World.setDoc_firestore]
  by_cases hpath : path' = path
  · subst hpath
    have hid : id' ≠ id := fun hid => h ⟨rfl, hid⟩
    rw [Function.update_self, Collection.getElem?_insert, if_neg hid]
  · rw [Function.update_of_ne (Ne.symm hpath)]

theorem World.getElem?_eraseDoc_of_ne (h : ¬ (path' = path ∧ id' = id)) :
    ((w.eraseDoc path' id').firestore path)[id]? = (w.firestore path)[id]? := by
  rw [World.eraseDoc_firestore]
  by_cases hpath : path' = path
  · subst hpath
    have hid : id' ≠ id := fun hid => h ⟨rfl, hid⟩
    rw [Function.update_self, Collection.getElem?_erase, if_neg hid]
  · rw [Function.update_of_ne (Ne.symm hpath)]

theorem World.getElem?_foldl_write_of_not_touches {writes : List Write} {t : Timestamp}
    (h : ∀ write ∈ writes, ¬ write.Touches path id) :
    ((writes.foldl (fun w => w.write t) w).firestore path)[id]? = (w.firestore path)[id]? := by
  induction writes generalizing w with
  | nil => rfl
  | cons write writes ih =>
    have hwrite := h write (List.mem_cons_self ..)
    rw [List.foldl_cons, ih fun write' hmem => h write' (List.mem_cons_of_mem _ hmem)]
    cases write with
    | set => exact World.getElem?_setDoc_of_ne hwrite
    | delete => exact World.getElem?_eraseDoc_of_ne hwrite

/-- A document stays as it is unless a call touches it. -/
theorem World.step_kept (hstep : World.step w c r = some w') (hc : ¬ c.Touches path id)
    (hd : (w.firestore path)[id]? = some d) : (w'.firestore path)[id]? = some d := by
  cases r with
  | error e => exact World.step_error hstep ▸ hd
  | ok a =>
    cases c with
    | add path' payload =>
      simp only [World.step, World.perform] at hstep
      split at hstep <;> rename_i hid <;> cases hstep
      have hne : ¬ (path' = path ∧ a.id = id) := by
        rintro ⟨rfl, rfl⟩
        exact hid (Std.ExtTreeMap.mem_iff_isSome_getElem?.mpr (by rw [hd]; rfl))
      exact (World.getElem?_setDoc_of_ne hne).trans hd
    | update path' id' fields =>
      simp only [World.step, World.perform] at hstep
      split at hstep <;> cases hstep
      exact (World.getElem?_setDoc_of_ne hc).trans hd
    | delete path' id' =>
      cases hstep
      exact (World.getElem?_eraseDoc_of_ne hc).trans hd
    | commit writes =>
      cases hstep
      refine (World.getElem?_foldl_write_of_not_touches fun write hmem htouches => ?_).trans hd
      exact hc ⟨write, hmem, htouches⟩
    | _ => exact Call.WritesNothing.firestore w _ _ w' (by trivial) hstep ▸ hd

theorem AuthoredBy.unique (h : AuthoredBy actor d) (h' : AuthoredBy userId d) : actor = userId :=
  Value.string_inj.mp (h.symm.trans h')

/-- A call writes nothing under the name of another user. -/
theorem Call.AllowedTo.nothingNew (h : c.AllowedTo stored actor) (hne : actor ≠ userId)
    (hstored : ∀ path id d, (w.firestore path)[id]? = some d → stored path id d)
    (hstep : World.step w c r = some w') (hpath : path.isContent = true)
    (hauthor : AuthoredBy userId d) (hd : (w'.firestore path)[id]? = some d) :
    (w.firestore path)[id]? = some d := by
  generalize he : (⟨c, r⟩ : AppEvent) = e
  have hcases : StoredBy w e path id d := he ▸ World.step_storedBy hstep hd
  cases hcases with
  | kept hbefore => exact hbefore
  | @added _ payload _ t =>
    cases he
    have hactor : AuthoredBy actor (payload.resolve t) := by
      rw [AuthoredBy, Doc.field_resolve, h hpath, Value.resolve_string]
    exact absurd (hactor.unique hauthor) hne
  | @merged _ _ fields d₀ _ hbefore =>
    cases he
    obtain ⟨howned, hkeeps⟩ := h hpath
    have hsame := field_eq_of_attribution (hkeeps d₀ (hstored _ _ _ hbefore))
      (CollectionPath.userId_mem_attributionKeys hpath)
    have hactor : AuthoredBy actor (d₀.merge fields) :=
      hsame.trans (howned d₀ (hstored _ _ _ hbefore))
    exact absurd (hactor.unique hauthor) hne
  | set hmem =>
    cases he
    cases (h _ hmem).symm.trans hpath

/-- A call touches what another user has written only when it deletes it with a post. -/
theorem Call.AllowedTo.onPostOf (h : c.AllowedTo stored actor) (hne : actor ≠ userId)
    (hd : stored path id d) (hpath : path.isContent = true) (hauthor : AuthoredBy userId d)
    (hc : c.Touches path id) : path ≠ .posts ∧ OnPostOf stored actor d := by
  cases c with
  | update path' id' fields =>
    obtain ⟨rfl, rfl⟩ := hc
    exact absurd (((h hpath).1 d hd).unique hauthor) hne
  | delete path' id' =>
    obtain ⟨rfl, rfl⟩ := hc
    exact absurd ((h hpath d hd).unique hauthor) hne
  | commit writes =>
    obtain ⟨write, hmem, htouches⟩ := hc
    cases write with
    | set path' id' payload =>
      obtain ⟨rfl, rfl⟩ := htouches
      cases (h _ hmem).symm.trans hpath
    | delete path' id' =>
      obtain ⟨rfl, rfl⟩ := htouches
      obtain ⟨hreaction, hdocs⟩ := h _ hmem
      have hnot : path' ≠ .posts := by
        rintro rfl
        rcases hreaction with heq | heq <;> cases heq
      exact ⟨hnot, hdocs d hd⟩
  | _ => exact hc.elim

/-- A call keeps what another user has written, or deletes it with a post. -/
theorem Call.AllowedTo.kept (h : c.AllowedTo stored actor) (hne : actor ≠ userId)
    (hstored : ∀ path id d, (w.firestore path)[id]? = some d → stored path id d)
    (hstep : World.step w c r = some w') (hpath : path.isContent = true)
    (hauthor : AuthoredBy userId d) (hd : (w.firestore path)[id]? = some d) :
    (w'.firestore path)[id]? = some d ∨ path ≠ .posts ∧ OnPostOf stored actor d := by
  by_cases hc : c.Touches path id
  · exact .inr (h.onPostOf hne (hstored _ _ _ hd) hpath hauthor hc)
  · exact .inl (World.step_kept hstep hc hd)

end Step

section Run

variable {runs : List (UserId × Nat × AppOperation)} {n : Network} {past moves : List DeviceMove}
  {m : DeviceMove} {P P' : AppDevices} {userId : UserId}

theorem OnPostOf.mono {stored stored' : CollectionPath → String → Doc → Prop} {d : Doc}
    (h : OnPostOf stored userId d)
    (hstored : ∀ path id d, stored path id d → stored' path id d) : OnPostOf stored' userId d := by
  obtain ⟨postId, post, hpostId, hpost, hauthor⟩ := h
  exact ⟨postId, post, hpostId, hstored _ _ _ hpost, hauthor⟩

end Run

end TekkGram
