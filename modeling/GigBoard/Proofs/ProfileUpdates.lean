import GigBoard.Proofs.Precedence
import GigBoard.Proofs.Sending
import GigBoard.Proofs.StorableTexts

/-!
# Partial updates of the own account

What a request to change the own account is answered with, and what becomes of the account: a name that
is given replaces the old one, and a detail stays if nothing is said of it, goes if it is given as null
or blank, and is replaced otherwise.  So updates compose member by member, and the answer shows the
account as it is then, also where nothing was to be written.
-/

set_option autoImplicit false

namespace GigBoard

open Account (ProfileChange TextPatch User UserView)
open Http (Request)

variable {ctx : Context} {r : Request} {s s' : Store} {caller : Uuid} {u : User}
  {body p q m : Json} {field : String} {now : Timestamp}

/-! ## What a body says -/

/-- A value has the members of two others, those of the second where both have them. -/
def Json.Overlays (m p q : Json) : Prop :=
  ∀ name, m.member? name = (q.member? name).or (p.member? name)

namespace Account

def details : List String := ["email", "bio", "avatarUrl"]

/-- A body has a fault: a name that is no text or blank, or a detail that is neither text nor null. -/
inductive FaultyUpdate (body : Json) : Prop where
  | username {value : Json} (given : body.member? "username" = some value)
      (blank : ∀ text, value = .string text → Text.trim text = "")
  | detail {field : String} {value : Json} (isDetail : field ∈ details)
      (given : body.member? field = some value) (notNull : value ≠ .null)
      (notText : ∀ text, value ≠ .string text)

def nameIn (body : Json) : Option String := (body.textAt? "username").map Text.trim

def detailAfter (body : Json) (field : String) (present : Option String) : Option String :=
  match body.member? field with
  | none => present
  | some (.string text) => if Text.trim text = "" then none else some (Text.trim text)
  | some _ => none

/-- Whether a body gives a detail, or a name that is not the present one. -/
def saysNew (body : Json) (u : User) : Bool :=
  (nameIn body).any (· ≠ u.username) || details.any fun field => (body.member? field).isSome

/-- A user after an update.  The time changes only if something is written. -/
def revise (body : Json) (u : User) (now : Timestamp) : User :=
  { u with
    username := (nameIn body).getD u.username
    email := detailAfter body "email" u.email
    bio := detailAfter body "bio" u.bio
    avatarUrl := detailAfter body "avatarUrl" u.avatarUrl
    updatedAt := if saysNew body u then now else u.updatedAt }

theorem Faultless.username {value : Json} (faultless : ¬FaultyUpdate body)
    (given : body.member? "username" = some value) :
    ∃ text, value = .string text ∧ Text.trim text ≠ "" := by
  by_contra none
  push Not at none
  exact faultless (.username given none)

theorem Faultless.detail {value : Json} (faultless : ¬FaultyUpdate body) (isDetail : field ∈ details)
    (given : body.member? field = some value) : value = .null ∨ ∃ text, value = .string text := by
  by_contra neither
  push Not at neither
  exact faultless (.detail isDetail given neither.1 neither.2)

theorem detailAfter_of_absent (absent : body.member? field = none) (present : Option String) :
    detailAfter body field present = present := by
  rw [detailAfter, absent]

theorem detailAfter_of_null (given : body.member? field = some .null) (present : Option String) :
    detailAfter body field present = none := by
  rw [detailAfter, given]

theorem detailAfter_of_text {text : String} (given : body.member? field = some (.string text))
    (present : Option String) :
    detailAfter body field present = if Text.trim text = "" then none else some (Text.trim text) := by
  rw [detailAfter, given]

@[simp]
theorem revise_id (body : Json) (u : User) (now : Timestamp) : (revise body u now).id = u.id := rfl

theorem revise_of_silent (silent : saysNew body u = false) : revise body u now = u := by
  have new : ¬saysNew body u = true := by simp [silent]
  rw [saysNew, Bool.or_eq_false_iff] at silent
  obtain ⟨noName, noDetail⟩ := silent
  have absent : ∀ field ∈ details, body.member? field = none := by
    simpa [List.any_eq_false] using noDetail
  have sameName : (nameIn body).getD u.username = u.username := by
    cases given : nameIn body with
    | none => rfl
    | some name => simpa [given] using noName
  rw [revise, sameName, if_neg new, detailAfter_of_absent (absent "email" (by decide)),
    detailAfter_of_absent (absent "bio" (by decide)),
    detailAfter_of_absent (absent "avatarUrl" (by decide))]

/-! ## Checking a body -/

namespace ProfileChange

theorem usernameOf_of_faultless (faultless : ¬FaultyUpdate body) :
    usernameOf body = .ok (nameIn body) := by
  cases given : body.member? "username" with
  | none => simp [usernameOf, nameIn, Json.textAt?, given]
  | some value =>
      obtain ⟨text, rfl, filled⟩ := Faultless.username faultless given
      have left := Text.nonBlank?_eq_some_iff.mpr ⟨rfl, filled⟩
      simp [usernameOf, nameIn, Json.textAt?, given, left]

/-- What is made of a detail does to it what the body says. -/
theorem patchOf_of_faultless (faultless : ¬FaultyUpdate body) (field : String)
    (isDetail : field ∈ details) :
    ∃ patch, patchOf body field = .ok patch ∧
      (∀ present, patch.apply present = detailAfter body field present) ∧
        patch.change?.isNone = (body.member? field).isNone := by
  cases given : body.member? field with
  | none =>
      refine ⟨.keep, ?_, fun present => (detailAfter_of_absent given present).symm, rfl⟩
      rw [patchOf, given]
  | some value =>
      rcases Faultless.detail faultless isDetail given with rfl | ⟨text, rfl⟩
      · refine ⟨.clear, ?_, fun present => (detailAfter_of_null given present).symm, rfl⟩
        rw [patchOf, given]
        rfl
      · by_cases blank : Text.trim text = ""
        · have left := Text.nonBlank?_eq_none_iff.mpr blank
          refine ⟨.clear, ?_, fun present => ?_, rfl⟩
          · simp only [patchOf, given, TextPatch.ofMember?, left]
          · rw [detailAfter_of_text given, if_pos blank]
            rfl
        · have left := Text.nonBlank?_eq_some_iff.mpr ⟨rfl, blank⟩
          refine ⟨.set (Text.trim text), ?_, fun present => ?_, rfl⟩
          · simp only [patchOf, given, TextPatch.ofMember?, left]
          · rw [detailAfter_of_text given, if_neg blank]
            rfl

/-- A name that is the present one is no change, and the name afterwards is the same. -/
theorem filter_ne (name : Option String) (present : String) :
    (name.filter (· ≠ present)).isNone = !name.any (· ≠ present) ∧
      (name.filter (· ≠ present)).getD present = name.getD present := by
  cases name with
  | none => exact ⟨rfl, rfl⟩
  | some name => by_cases same : name = present <;> simp [Option.filter, same]

/-- A body without faults makes the change that it says, which is empty if it says nothing new. -/
theorem ofBody_of_faultless (faultless : ¬FaultyUpdate body) (u : User) : ∃ change,
    ofBody body u = .ok change ∧ change.isEmpty = !saysNew body u ∧
      (saysNew body u = true → ∀ now, change.apply u now = revise body u now) := by
  obtain ⟨email, isEmail, emailAfter, emailKept⟩ :=
    patchOf_of_faultless faultless "email" (by decide)
  obtain ⟨bio, isBio, bioAfter, bioKept⟩ :=
    patchOf_of_faultless faultless "bio" (by decide)
  obtain ⟨avatarUrl, isAvatarUrl, avatarUrlAfter, avatarUrlKept⟩ :=
    patchOf_of_faultless faultless "avatarUrl" (by decide)
  refine ⟨⟨(nameIn body).filter (· ≠ u.username), email, bio, avatarUrl⟩, ?_, ?_, ?_⟩
  · rw [ofBody, usernameOf_of_faultless faultless, isEmail, isBio, isAvatarUrl]
    rfl
  · simp only [isEmpty, (filter_ne _ _).1, emailKept, bioKept, avatarUrlKept, saysNew, details,
      List.any_cons, List.any_nil, Bool.not_or, Bool.or_false, Bool.and_assoc, ← Option.not_isSome]
  · intro new now
    simp only [apply, revise, (filter_ne _ _).2, emailAfter, bioAfter, avatarUrlAfter, if_pos new]

theorem faultless_of_ofBody {change : ProfileChange} (asked : ofBody body u = .ok change) :
    ¬FaultyUpdate body := by
  unfold ofBody at asked
  obtain ⟨_, isName, asked⟩ := bind_ok asked
  obtain ⟨_, isEmail, asked⟩ := bind_ok asked
  obtain ⟨_, isBio, asked⟩ := bind_ok asked
  obtain ⟨_, isAvatarUrl, _⟩ := bind_ok asked
  have read : ∀ field ∈ details, ∃ patch, patchOf body field = .ok patch := by
    simp only [details, List.forall_mem_cons]
    exact ⟨⟨_, isEmail⟩, ⟨_, isBio⟩, ⟨_, isAvatarUrl⟩, List.forall_mem_nil _⟩
  rintro (⟨given, blank⟩ | ⟨isDetail, given, notNull, notText⟩)
  · rename_i value
    unfold usernameOf at isName
    rw [given] at isName
    cases value with
    | string text =>
        simp only [Text.nonBlank?_eq_none_iff.mpr (blank text rfl)] at isName
        cases isName
    | _ => cases isName
  · rename_i field value
    obtain ⟨patch, isPatch⟩ := read field isDetail
    unfold patchOf at isPatch
    rw [given] at isPatch
    cases value with
    | string text => exact notText text rfl
    | null => exact notNull rfl
    | _ => cases isPatch

theorem usernameOf_tells (body : Json) : Tells 400 (usernameOf body) := by
  unfold usernameOf
  split
  · exact .ok _
  · split
    · exact .error rfl
    · exact .ok _
  · exact .error rfl

theorem patchOf_tells (body : Json) (field : String) : Tells 400 (patchOf body field) := by
  unfold patchOf
  split
  · exact .ok _
  · split
    · exact .error rfl
    · exact .ok _

theorem ofBody_of_faulty (faulty : FaultyUpdate body) (u : User) :
    ∃ f, ofBody body u = .error f ∧ f.problem.status = 400 := by
  have tells : Tells 400 (ofBody body u) :=
    .bind (usernameOf_tells _) fun _ => .bind (patchOf_tells _ _) fun _ =>
      .bind (patchOf_tells _ _) fun _ => .bind (patchOf_tells _ _) fun _ => .ok _
  exact tells.failed fun _ made => faultless_of_ofBody made faulty

end ProfileChange
/-! ## Texts -/

theorem textAt_of_member {text : String} (given : body.member? field = some (.string text)) :
    body.textAt? field = some text := by
  rw [Json.textAt?, given]

theorem member_of_textAt {text : String} (given : body.textAt? field = some text) :
    body.member? field = some (.string text) := by
  unfold Json.textAt? at given
  split at given
  · rename_i member
    rw [member, Option.some.inj given]
  · cases given

/-- A text that a detail has afterwards is given by the body, or stays. -/
theorem detailAfter_elim {P : String → Prop} {present : Option String}
    (new : ∀ t, (body.textAt? field).map Text.trim = some t → P t)
    (old : ∀ t, present = some t → P t) : ∀ t, detailAfter body field present = some t → P t := by
  intro t after
  unfold detailAfter at after
  split at after
  · exact old t after
  · rename_i text given
    split at after
    · cases after
    · exact new t (by rw [textAt_of_member given, Option.map_some, Option.some.inj after])
  · cases after

/-- A text that is given for a detail is blank, or the detail has it afterwards. -/
theorem fits_of_detailAfter {size : Option Nat} {present : Option String}
    (after : ∀ t, detailAfter body field present = some t → Text.Fits size t) :
    ∀ t, (body.textAt? field).map Text.trim = some t → Text.Fits size t := by
  intro t given
  obtain ⟨text, isText, rfl⟩ := Option.map_eq_some_iff.mp given
  by_cases blank : Text.trim text = ""
  · rw [blank]
    exact Text.fits_empty size
  · refine after _ ?_
    rw [detailAfter_of_text (member_of_textAt isText), if_neg blank]

theorem User.fits_iff : u.fits = true ↔
    Text.Fits (some 64) u.walletAddress ∧ Text.Fits (some 100) u.username ∧
      (∀ t, u.email = some t → Text.Fits (some 255) t) ∧
        (∀ t, u.bio = some t → Text.Fits none t) ∧
          ∀ t, u.avatarUrl = some t → Text.Fits none t := by
  simp only [User.fits, Bool.and_eq_true, Option.all_eq_true, Text.fits_some_iff, Text.fits_none_iff,
    and_assoc]

/-- The texts of an update fit their columns exactly if those of the user do afterwards. -/
theorem revise_fits_iff (fits : u.fits = true) :
    (revise body u now).fits = true ↔ (Call.updateSelf caller body).Storable := by
  obtain ⟨wallet, username, email, bio, avatarUrl⟩ := User.fits_iff.mp fits
  simp only [Call.Storable, Call.texts, List.forall_mem_cons, User.fits_iff]
  constructor
  · rintro ⟨_, username', email', bio', avatarUrl'⟩
    refine ⟨fun t given => ?_, fits_of_detailAfter email', fits_of_detailAfter bio',
      fits_of_detailAfter avatarUrl', List.forall_mem_nil _⟩
    rw [revise, nameIn, given] at username'
    exact username'
  · rintro ⟨username', email', bio', avatarUrl', _⟩
    refine ⟨wallet, ?_, detailAfter_elim email' email, detailAfter_elim bio' bio,
      detailAfter_elim avatarUrl' avatarUrl⟩
    cases given : nameIn body with
    | none =>
        rw [revise, given]
        exact username
    | some name =>
        rw [revise, given]
        exact username' name given

end Account

/-! ## The row of a user -/

namespace Store

def withAccountRevised (s : Store) (caller : Uuid) (body : Json) (now : Timestamp) : Store :=
  { s with users := s.users.map fun v => if v.id = caller then Account.revise body v now else v }

def withAccountTime (s : Store) (caller : Uuid) (now : Timestamp) : Store :=
  { s with users := s.users.map fun v => if v.id = caller then { v with updatedAt := now } else v }

def NameTaken (s : Store) (caller : Uuid) (body : Json) : Prop :=
  ∃ v ∈ s.users, v.id ≠ caller ∧ Account.nameIn body = some v.username

section Present

variable (sound : s.Sound) (hu : u ∈ s.users)

include sound hu

theorem username_ne_of_other : ∀ v ∈ s.users, v.id ≠ u.id → v.username ≠ u.username :=
  fun _ hv other same => other (congrArg User.id (sound.keyed.username.eq_of_same hv hu same))

theorem withAccountRevised_of_silent (silent : Account.saysNew body u = false) :
    s.withAccountRevised u.id body now = s := by
  have same : (s.users.map fun v => if v.id = u.id then Account.revise body v now else v) =
      s.users.map fun v => if v.id = u.id then v else v :=
    sound.keyed.userId.map_change_congr hu rfl (Account.revise_of_silent silent)
  rw [withAccountRevised, same]
  simp only [ite_self, List.map_id']

/-- Somebody else has the name of the row afterwards exactly if the body gives that name. -/
theorem nameTaken_iff : s.NameTaken u.id body ↔
    ∃ v ∈ s.users, v.id ≠ u.id ∧ v.username = (Account.revise body u now).username := by
  cases given : Account.nameIn body with
  | none =>
      constructor
      · rintro ⟨v, _, _, isName⟩
        rw [given] at isName
        cases isName
      · rintro ⟨v, hv, other, same⟩
        rw [Account.revise, given] at same
        exact absurd same (username_ne_of_other sound hu v hv other)
  | some name =>
      simp only [NameTaken, given, Account.revise, Option.getD_some, Option.some.injEq,
        eq_comm (a := name)]

/-- What says nothing new has no text that does not fit, and no name of somebody else. -/
theorem storable_of_silent (silent : Account.saysNew body u = false) :
    (Call.updateSelf u.id body).Storable ∧ ¬s.NameTaken u.id body := by
  have unchanged := @Account.revise_of_silent _ _ u.updatedAt silent
  have fits := sound.fitting.users u hu
  refine ⟨(Account.revise_fits_iff fits).mp (by rwa [unchanged]), ?_⟩
  rw [nameTaken_iff sound hu, unchanged]
  rintro ⟨v, hv, other, same⟩
  exact username_ne_of_other sound hu v hv other same

theorem replaceUser_of_free (fit : (Account.revise body u now).fits = true)
    (free : ¬s.NameTaken u.id body) :
    replaceUser (Account.revise body u now) s = .ok ((), s.withAccountRevised u.id body now) := by
  rw [@nameTaken_iff _ _ _ now sound hu] at free
  have isFree : ¬(s.users.any fun v => v.id ≠ u.id &&
      v.username = (Account.revise body u now).username) = true := by
    simpa using free
  -- Replacing the row of a user is the same as revising it, as there is but one.
  have same : (s.users.map fun v => if v.id = u.id then Account.revise body u now else v) =
      s.users.map fun v => if v.id = u.id then Account.revise body v now else v :=
    sound.keyed.userId.map_change_congr hu rfl rfl
  rw [replaceUser, Account.revise_id, if_neg (by simp [fit]), if_neg isFree]
  exact congrArg (fun users => Except.ok ((), { s with users := users })) same

theorem replaceUser_of_taken (fit : (Account.revise body u now).fits = true)
    (taken : s.NameTaken u.id body) :
    replaceUser (Account.revise body u now) s = .error .duplicate := by
  rw [@nameTaken_iff _ _ _ now sound hu] at taken
  have isTaken : (s.users.any fun v => v.id ≠ u.id &&
      v.username = (Account.revise body u now).username) = true := by
    simpa using taken
  rw [replaceUser, Account.revise_id, if_neg (by simp [fit]), if_pos isTaken]

end Present

end Store

/-! ## Changing the account -/

namespace Store

variable {id : Uuid}

theorem user?_of_missing (missing : ∀ v ∈ s.users, v.id ≠ id) : user? id s = .ok none := by
  have nothing : s.users.find? (fun v => decide (v.id = id)) = none := by
    rw [List.find?_eq_none]
    intro v hv same
    exact missing v hv (of_decide_eq_true same)
  rw [user?, nothing]
  rfl

variable (sound : s.Sound) (hu : u ∈ s.users)

include sound hu

theorem user?_of_readable (readable : u.isReadable = true) : user? u.id s = .ok (some u) := by
  rw [user?, sound.keyed.userId.find?_eq hu rfl, readRow, Option.all_some, if_pos readable]

theorem user?_of_unreadable (unreadable : ¬u.isReadable = true) :
    user? u.id s = .error .unreadable := by
  rw [user?, sound.keyed.userId.find?_eq hu rfl, readRow, Option.all_some, if_neg unreadable]

end Store

namespace Account

section Present

variable (connected : ctx.connected = true) (sound : s.Sound) (hu : u ∈ s.users)

include connected

theorem updateSelf_of_missing (missing : ∀ v ∈ s.users, v.id ≠ caller) :
    updateSelf caller body ctx s = (.error (.missing "user"), s) := by
  rw [updateSelf, Action.bind_of_ok (Action.connect_of_connected connected),
    Action.bind_of_ok (Action.query_of_ok (Store.user?_of_missing missing))]
  rfl

include sound hu

theorem updateSelf_of_unreadable (unreadable : ¬u.isReadable = true) :
    updateSelf u.id body ctx s = (.error (.store .unreadable), s) := by
  have failed := Store.user?_of_unreadable sound hu unreadable
  rw [updateSelf, Action.bind_of_ok (Action.connect_of_connected connected)]
  apply Action.bind_of_error
  rw [Action.query, failed]

variable (readable : u.isReadable = true)

include readable

theorem updateSelf_of_readable : updateSelf u.id body ctx s =
    (Action.ofExcept (ProfileChange.ofBody body u) >>= fun change =>
      if change.isEmpty then Action.done (.ofUser u)
      else
        Action.context >>= fun ctx =>
          Action.change (Store.replaceUser (change.apply u ctx.now))
              Failure.usernameTaken.onDuplicate >>= fun _ =>
            Action.query (Store.user? u.id) >>= fun row =>
              Action.expect (.store .noRow) row >>= fun updated =>
                Action.done (.ofUser updated)) ctx s := by
  rw [updateSelf, Action.bind_of_ok (Action.connect_of_connected connected),
    Action.bind_of_ok (Action.query_of_ok (Store.user?_of_readable sound hu readable))]
  rfl

theorem updateSelf_of_faulty (faulty : FaultyUpdate body) :
    ∃ f, updateSelf u.id body ctx s = (.error f, s) ∧ f.problem.status = 400 := by
  obtain ⟨f, failed, told⟩ := ProfileChange.ofBody_of_faulty faulty u
  refine ⟨f, ?_, told⟩
  rw [updateSelf_of_readable connected sound hu readable, failed]
  exact Action.bind_of_error rfl

variable (faultless : ¬FaultyUpdate body)

include faultless

theorem updateSelf_of_silent (silent : saysNew body u = false) :
    updateSelf u.id body ctx s = (.ok (.ofUser u), s) := by
  obtain ⟨change, made, isEmpty, _⟩ := ProfileChange.ofBody_of_faultless faultless u
  rw [silent, Bool.not_false] at isEmpty
  rw [updateSelf_of_readable connected sound hu readable, made]
  refine (Action.bind_of_ok rfl).trans ?_
  rw [if_pos isEmpty]
  rfl

/-- What says something new comes to the statement that replaces the row, and then to what is shown. -/
theorem updateSelf_of_new (new : saysNew body u = true) : updateSelf u.id body ctx s =
    (Action.change (Store.replaceUser (revise body u ctx.now)) Failure.usernameTaken.onDuplicate
      >>= fun _ => Action.query (Store.user? u.id) >>= fun row =>
        Action.expect (.store .noRow) row >>= fun updated => Action.done (.ofUser updated)) ctx s := by
  obtain ⟨change, made, isEmpty, is⟩ := ProfileChange.ofBody_of_faultless faultless u
  rw [new, Bool.not_true] at isEmpty
  rw [updateSelf_of_readable connected sound hu readable, made, ← is new]
  refine (Action.bind_of_ok rfl).trans ?_
  rw [if_neg (by simp [isEmpty])]
  rfl

theorem updateSelf_of_refused {fault : StoreFault} (new : saysNew body u = true)
    (refused : Store.replaceUser (revise body u ctx.now) s = .error fault) :
    updateSelf u.id body ctx s = (.error (Failure.usernameTaken.onDuplicate fault), s) := by
  rw [updateSelf_of_new connected sound hu readable faultless new]
  exact Action.bind_of_error (Action.change_of_error refused)

variable (fit : (revise body u ctx.now).fits = true) (free : ¬s.NameTaken u.id body)

include fit free

/-- A change that is written leaves the row that the body says, if the row can be read back. -/
theorem updateSelf_of_free :
    (updateSelf u.id body ctx s).2 = s.withAccountRevised u.id body ctx.now ∧
      (updateSelf u.id body ctx s).1 =
        if (revise body u ctx.now).isReadable then .ok (.ofUser (revise body u ctx.now))
        else .error (.store .unreadable) := by
  cases new : saysNew body u with
  | false =>
      rw [updateSelf_of_silent connected sound hu readable faultless new, revise_of_silent new,
        if_pos readable, Store.withAccountRevised_of_silent sound hu new]
      exact ⟨rfl, rfl⟩
  | true =>
      have written := Store.replaceUser_of_free sound hu fit free
      have known : ∃ v ∈ s.users, v.id = (revise body u ctx.now).id ∧
          v.walletAddress = (revise body u ctx.now).walletAddress := ⟨u, hu, rfl, rfl⟩
      have sound' := Store.replaceUser_sound sound known written
      have row : revise body u ctx.now ∈ (s.withAccountRevised u.id body ctx.now).users :=
        List.mem_map.mpr ⟨u, hu, if_pos rfl⟩
      rw [updateSelf_of_new connected sound hu readable faultless new,
        Action.bind_of_ok (Action.change_of_ok written)]
      by_cases readable' : (revise body u ctx.now).isReadable = true
      · have read : Store.user? u.id _ = _ :=
          Store.user?_of_readable (u := revise body u ctx.now) sound' row readable'
        rw [Action.bind_of_ok (Action.query_of_ok read), if_pos readable']
        exact ⟨rfl, rfl⟩
      · have failed : Store.user? u.id _ = _ :=
          Store.user?_of_unreadable (u := revise body u ctx.now) sound' row readable'
        have stopped : Action.query (Store.user? u.id) ctx (s.withAccountRevised u.id body ctx.now) =
            (.error (.store .unreadable), s.withAccountRevised u.id body ctx.now) := by
          rw [Action.query, failed]
        rw [Action.bind_of_error stopped, if_neg readable']
        exact ⟨rfl, rfl⟩

end Present

end Account

namespace Server

variable {server : Server}

def ShowsAccount (server : Server) (ctx : Context) (r : Request) (s : Store) (u : User)
    (left : Store) : Prop :=
  server.Ends ctx r s 200 left ∧
    (server.handle ctx r s).1.body = some (UserView.ofUser u).toJson

/-- What a request to change the own account is answered with.  It is answered with 500 if the store
cannot be reached or the row of the user cannot be read back, before or after the change. -/
def AnswersSelfUpdate (server : Server) (caller : Uuid) (body : Json) (ctx : Context) (r : Request)
    (s : Store) : Prop :=
  FirstOf [
    (ctx.connected = false, server.Ends ctx r s 500 s),
    (∀ u ∈ s.users, u.id ≠ caller, server.Ends ctx r s 404 s)]
  (∃ u ∈ s.users, u.id = caller ∧ FirstOf [
    (¬u.isReadable = true, server.Ends ctx r s 500 s),
    (Account.FaultyUpdate body, server.Ends ctx r s 400 s),
    (¬(Call.updateSelf caller body).Storable, server.Ends ctx r s 500 s),
    (s.NameTaken caller body, server.Ends ctx r s 409 s),
    (¬(Account.revise body u ctx.now).isReadable = true,
      server.Ends ctx r s 500 (s.withAccountRevised caller body ctx.now))]
  (server.ShowsAccount ctx r s (Account.revise body u ctx.now)
    (s.withAccountRevised caller body ctx.now)))

namespace UpdatesSelf

section Answers

variable (updates : server.UpdatesSelf caller body ctx r)

include updates

theorem ends_of_error {f : Failure} (failed : Account.updateSelf caller body ctx s = (.error f, s')) :
    server.Ends ctx r s f.problem.status s' :=
  Server.ends_of_error (asked?_updateSelf_iff.mpr updates) (Action.bind_of_error failed)

theorem showsAccount (shown : Account.updateSelf caller body ctx s = (.ok (.ofUser u), s')) :
    server.ShowsAccount ctx r s u s' := by
  have asked := asked?_updateSelf_iff.mpr updates
  have performed : (Call.updateSelf caller body).perform ctx s =
      (.ok (.ok (UserView.ofUser u).toJson), s') := Action.bind_of_ok shown
  have notHead : r.method ≠ .head := by
    rw [updates.method]
    decide
  refine ⟨Server.ends_of_ok asked performed, ?_⟩
  rw [body_of_asked_of_not_head notHead asked, perform, performed]
  rfl

theorem answersSelfUpdate (sound : s.Sound) : server.AnswersSelfUpdate caller body ctx r s := by
  refine ⟨fun lost => ?_, fun isConnected => ?_⟩
  · exact updates.ends_of_error (Action.bind_of_error (Action.connect_of_lost lost))
  have connected : ctx.connected = true := by simpa using isConnected
  refine ⟨fun missing => ?_, fun isThere => ?_⟩
  · exact updates.ends_of_error (Account.updateSelf_of_missing connected missing)
  push Not at isThere
  obtain ⟨u, hu, rfl⟩ := isThere
  refine ⟨u, hu, rfl, fun unreadable => ?_, fun isReadable => ?_⟩
  · exact updates.ends_of_error (Account.updateSelf_of_unreadable connected sound hu unreadable)
  have readable := not_not.mp isReadable
  refine ⟨fun faulty => ?_, fun faultless => ?_⟩
  · obtain ⟨f, failed, told⟩ := Account.updateSelf_of_faulty connected sound hu readable faulty
    rw [← told]
    exact updates.ends_of_error failed
  have fits : (Account.revise body u ctx.now).fits = true ↔ (Call.updateSelf u.id body).Storable :=
    Account.revise_fits_iff (sound.fitting.users u hu)
  -- What says nothing new is never refused by the store.
  have news (refused : ¬(Call.updateSelf u.id body).Storable ∨ s.NameTaken u.id body) :
      Account.saysNew body u = true := by
    by_contra silent
    obtain ⟨storable, free⟩ := Store.storable_of_silent sound hu (by simpa using silent)
    exact refused.elim (· storable) free
  refine ⟨fun unstorable => ?_, fun isStorable => ?_⟩
  · have unfit : ¬(Account.revise body u ctx.now).fits = true := fun fit => unstorable (fits.mp fit)
    have refused : Store.replaceUser (Account.revise body u ctx.now) s = .error .rejected := by
      rw [Store.replaceUser, if_pos (by simpa using unfit)]
    exact updates.ends_of_error (Account.updateSelf_of_refused connected sound hu readable faultless
      (news (.inl unstorable)) refused)
  have fit := fits.mpr (not_not.mp isStorable)
  refine ⟨fun taken => ?_, fun free => ?_⟩
  · exact updates.ends_of_error (Account.updateSelf_of_refused connected sound hu readable faultless
      (news (.inr taken)) (Store.replaceUser_of_taken sound hu fit taken))
  obtain ⟨left, answer⟩ :=
    Account.updateSelf_of_free connected sound hu readable faultless fit free
  refine ⟨fun unreadable => ?_, fun shown => ?_⟩
  · rw [if_neg unreadable] at answer
    exact updates.ends_of_error (Prod.ext answer left)
  · rw [if_pos (not_not.mp shown)] at answer
    exact updates.showsAccount (Prod.ext answer left)

end Answers

end UpdatesSelf

end Server

/-! ## Values that lie too deep -/

namespace Json

def nested : Nat → Json
  | 0 => array []
  | n + 1 => array [nested n]

theorem readUpTo_bracket (inner : Frame → Decoder Json) (bs : List UInt8) :
    readUpTo inner (octet '[' :: bs) = inner .array (octet '[' :: bs) := rfl

theorem nextElement_bracket (bs : List UInt8) :
    nextElement true (octet '[' :: bs) = .ok (true, octet '[' :: bs) := rfl

theorem readValue_of_deep (depth : Nat) (rest : List UInt8) :
    readValue depth (List.replicate (depth + 1) (octet '[') ++ rest) = .error .malformed := by
  induction depth with
  | zero => rfl
  | succ depth ih =>
      rw [List.replicate_succ, List.cons_append, readValue, readUpTo_bracket]
      simp only [List.tail_cons]
      rw [Decoder.elements]
      rw [List.replicate_succ, List.cons_append] at ih ⊢
      simp only [nextElement_bracket, ih]
      rfl

end Json

/-! ## Bodies one over the other -/

namespace Json

/-- The members of an object in front of those of another stand over them. -/
theorem overlays_append (ps qs : List (String × Json)) :
    (object (qs ++ ps)).Overlays (object ps) (object qs) := by
  intro name
  simp only [member?, List.find?_append, Option.map_or]

theorem overlays_self (p : Json) : p.Overlays p p := fun _ => Option.or_self.symm

namespace Overlays

variable (overlays : m.Overlays p q)

include overlays

/-- A member is that of the second value, or that of the first if the second has none. -/
theorem member (name : String) : q.member? name ≠ none ∧ m.member? name = q.member? name ∨
    q.member? name = none ∧ m.member? name = p.member? name := by
  rw [overlays name]
  cases q.member? name with
  | none => exact .inr ⟨rfl, rfl⟩
  | some value => exact .inl ⟨nofun, rfl⟩

theorem textAt (name : String) : q.member? name ≠ none ∧ m.textAt? name = q.textAt? name ∨
    q.member? name = none ∧ m.textAt? name = p.textAt? name :=
  (overlays.member name).imp (And.imp_right fun same => by simp only [textAt?, same])
    (And.imp_right fun same => by simp only [textAt?, same])

end Overlays

end Json

namespace Account

variable (overlays : m.Overlays p q)

include overlays

theorem FaultyUpdate.of_overlays (faulty : FaultyUpdate m) : FaultyUpdate p ∨ FaultyUpdate q := by
  rcases faulty with ⟨given, blank⟩ | ⟨isDetail, given, notNull, notText⟩
  · rcases overlays.member "username" with ⟨_, same⟩ | ⟨_, same⟩
    · exact .inr (.username (same ▸ given) blank)
    · exact .inl (.username (same ▸ given) blank)
  · rename_i field value
    rcases overlays.member field with ⟨_, same⟩ | ⟨_, same⟩
    · exact .inr (.detail isDetail (same ▸ given) notNull notText)
    · exact .inl (.detail isDetail (same ▸ given) notNull notText)

theorem detailAfter_detailAfter (field : String) (present : Option String) :
    detailAfter m field present = detailAfter q field (detailAfter p field present) := by
  rcases overlays.member field with ⟨given, same⟩ | ⟨absent, same⟩
  · unfold detailAfter
    rw [same]
    cases is : q.member? field with
    | none => exact absurd is given
    | some value => cases value <;> rfl
  · rw [detailAfter_of_absent absent, detailAfter, same]
    rfl

theorem nameIn_overlaid (faultless : ¬FaultyUpdate q) : nameIn m = (nameIn q).or (nameIn p) := by
  unfold nameIn
  rcases overlays.textAt "username" with ⟨given, same⟩ | ⟨absent, same⟩
  · rw [same]
    obtain ⟨value, isValue⟩ := Option.ne_none_iff_exists'.mp given
    obtain ⟨text, rfl, _⟩ := Faultless.username faultless isValue
    rw [textAt_of_member isValue]
    rfl
  · have nothing : q.textAt? "username" = none := by rw [Json.textAt?, absent]
    rw [same, nothing]
    rfl

/-- One update after another does what both together do, but for the time. -/
theorem revise_revise (faultless : ¬FaultyUpdate q) (u : User) (before after both : Timestamp) :
    revise m u both =
      { revise q (revise p u before) after with updatedAt := (revise m u both).updatedAt } := by
  have name : (nameIn m).getD u.username = (nameIn q).getD ((nameIn p).getD u.username) := by
    rw [nameIn_overlaid overlays faultless]
    cases nameIn q <;> rfl
  simp only [revise, name, detailAfter_detailAfter overlays]

omit overlays in
/-- The same update again changes nothing but the time. -/
theorem revise_again (faultless : ¬FaultyUpdate p) (u : User) (before after : Timestamp) :
    revise p (revise p u before) after =
      { revise p u before with updatedAt := (revise p (revise p u before) after).updatedAt } :=
  congrArg (fun v => { v with updatedAt := (revise p (revise p u before) after).updatedAt })
    (revise_revise (Json.overlays_self p) faultless u before after before).symm

theorem storable_overlaid (first : (Call.updateSelf caller p).Storable)
    (second : (Call.updateSelf caller q).Storable) : (Call.updateSelf caller m).Storable := by
  have either (size : Option Nat) (field : String)
      (ofP : ∀ t, (p.textAt? field).map Text.trim = some t → Text.Fits size t)
      (ofQ : ∀ t, (q.textAt? field).map Text.trim = some t → Text.Fits size t) :
      ∀ t, (m.textAt? field).map Text.trim = some t → Text.Fits size t := by
    rcases overlays.textAt field with ⟨_, same⟩ | ⟨_, same⟩
    · rwa [same]
    · rwa [same]
  simp only [Call.Storable, Call.texts, List.forall_mem_cons] at first second ⊢
  exact ⟨either _ _ first.1 second.1, either _ _ first.2.1 second.2.1,
    either _ _ first.2.2.1 second.2.2.1, either _ _ first.2.2.2.1 second.2.2.2.1,
    List.forall_mem_nil _⟩

end Account

/-! ## Updates one after another -/

/-- A store in which an update of a user would be accepted in good time. -/
structure Store.AdmitsSelfUpdate (s : Store) (caller : Uuid) (body : Json) (u : User) : Prop where
  member : u ∈ s.users
  own : u.id = caller
  readable : u.isReadable = true
  faultless : ¬Account.FaultyUpdate body
  storable : (Call.updateSelf caller body).Storable
  free : ¬s.NameTaken caller body

namespace Store

variable {v : User}

theorem mem_withAccountRevised (body : Json) (now : Timestamp) (hu : u ∈ s.users)
    (own : u.id = caller) :
    Account.revise body u now ∈ (s.withAccountRevised caller body now).users :=
  List.mem_map.mpr ⟨u, hu, if_pos own⟩

/-- The names of the others are the same after an update. -/
theorem nameTaken_withAccountRevised :
    (s.withAccountRevised caller p now).NameTaken caller q ↔ s.NameTaken caller q := by
  constructor
  · rintro ⟨v, hv, other, isName⟩
    obtain ⟨w, hw, rfl⟩ := List.mem_map.mp hv
    by_cases own : w.id = caller
    · rw [if_pos own] at other
      exact absurd own other
    · rw [if_neg own] at isName
      exact ⟨w, hw, own, isName⟩
  · rintro ⟨v, hv, other, isName⟩
    exact ⟨v, List.mem_map.mpr ⟨v, hv, if_neg other⟩, other, isName⟩

namespace AdmitsSelfUpdate

theorem overlaid (overlays : m.Overlays p q) (first : s.AdmitsSelfUpdate caller p u)
    (second : (s.withAccountRevised caller p now).AdmitsSelfUpdate caller q v) :
    s.AdmitsSelfUpdate caller m u where
  member := first.member
  own := first.own
  readable := first.readable
  faultless faulty := (faulty.of_overlays overlays).elim first.faultless second.faultless
  storable := Account.storable_overlaid overlays first.storable second.storable
  free := by
    rintro ⟨w, hw, other, isName⟩
    rw [Account.nameIn_overlaid overlays second.faultless] at isName
    rcases Option.or_eq_some_iff.mp isName with ofQ | ⟨_, ofP⟩
    · exact second.free (nameTaken_withAccountRevised.mpr ⟨w, hw, other, ofQ⟩)
    · exact first.free ⟨w, hw, other, ofP⟩

/-- An update is accepted again. -/
theorem again (admits : s.AdmitsSelfUpdate caller p u)
    (readable : (Account.revise p u now).isReadable = true) :
    (s.withAccountRevised caller p now).AdmitsSelfUpdate caller p (Account.revise p u now) where
  member := mem_withAccountRevised p now admits.member admits.own
  own := admits.own
  readable := readable
  faultless := admits.faultless
  storable := admits.storable
  free := fun taken => admits.free (nameTaken_withAccountRevised.mp taken)

/-- Two updates one after another leave what both together leave, but for the time. -/
theorem withAccountRevised_twice (sound : s.Sound) (overlays : m.Overlays p q)
    (admits : s.AdmitsSelfUpdate caller m u) (faultless : ¬Account.FaultyUpdate q)
    (before after both : Timestamp) :
    s.withAccountRevised caller m both =
      ((s.withAccountRevised caller p before).withAccountRevised caller q after).withAccountTime
        caller (Account.revise m u both).updatedAt := by
  unfold withAccountRevised withAccountTime
  congr 1
  rw [Rows.map_change_twice s.users (Account.revise_id p · before)]
  refine Eq.trans ?_ (Rows.map_change_twice s.users fun v => ?_).symm
  · exact sound.keyed.userId.map_change_congr admits.member admits.own
      (Account.revise_revise overlays faultless u before after both)
  · rw [Account.revise_id, Account.revise_id]

/-- An update that changes nothing of the row but the time changes nothing else of the store. -/
theorem withAccountRevised_same (sound : s.Sound) (admits : s.AdmitsSelfUpdate caller p u)
    {time : Timestamp} (same : Account.revise p u now = { u with updatedAt := time }) :
    s.withAccountRevised caller p now = s.withAccountTime caller time := by
  unfold withAccountRevised withAccountTime
  congr 1
  exact sound.keyed.userId.map_change_congr admits.member admits.own same

end AdmitsSelfUpdate

end Store

namespace Server

variable {server : Server}

namespace UpdatesSelf

variable (updates : server.UpdatesSelf caller body ctx r) (sound : s.Sound)

include updates sound

theorem admits_of_answered (answered : (server.handle ctx r s).1.status = 200) :
    ctx.connected = true ∧ ∃ u, s.AdmitsSelfUpdate caller body u ∧
      (Account.revise body u ctx.now).isReadable = true ∧
        (server.handle ctx r s).2 = s.withAccountRevised caller body ctx.now := by
  have answers := updates.answersSelfUpdate sound
  -- Every refusal has another status.
  have unsaid {status : Nat} {left : Store} (other : status ≠ 200) :
      ¬server.Ends ctx r s status left := not_ends answered other
  obtain ⟨before, u, hu, own, answers⟩ := answers.of_unsaid (by
    simp only [List.forall_mem_cons]
    exact ⟨unsaid (by decide), unsaid (by decide), List.forall_mem_nil _⟩)
  obtain ⟨refusals, shows⟩ := answers.of_unsaid (by
    simp only [List.forall_mem_cons]
    exact ⟨unsaid (by decide), unsaid (by decide), unsaid (by decide), unsaid (by decide),
      unsaid (by decide), List.forall_mem_nil _⟩)
  simp only [List.forall_mem_cons, not_not] at before refusals
  obtain ⟨readable, faultless, storable, free, readable', _⟩ := refusals
  exact ⟨by simpa using before.1, u, ⟨hu, own, readable, faultless, storable, free⟩, readable',
    shows.1.2⟩

theorem showsAccount_of_admits (connected : ctx.connected = true)
    (timely : ctx.now.isRepresentable = true) (admits : s.AdmitsSelfUpdate caller body u) :
    server.ShowsAccount ctx r s (Account.revise body u ctx.now)
      (s.withAccountRevised caller body ctx.now) := by
  have answers := updates.answersSelfUpdate sound
  have isThere : ¬∀ v ∈ s.users, v.id ≠ caller := fun missing =>
    missing u admits.member admits.own
  obtain ⟨v, hv, own, answers⟩ := answers.of_otherwise (by
    simp only [List.forall_mem_cons]
    exact ⟨by simp [connected], isThere, List.forall_mem_nil _⟩)
  obtain rfl := sound.keyed.userId.eq_of_same hv admits.member (own.trans admits.own.symm)
  have readable' : (Account.revise body v ctx.now).isReadable = true := by
    have readable := admits.readable
    rw [User.isReadable, Bool.and_eq_true] at readable ⊢
    refine ⟨readable.1, ?_⟩
    rw [Account.revise]
    split
    · exact timely
    · exact readable.2
  apply answers.of_otherwise
  simp only [List.forall_mem_cons, not_not]
  exact ⟨admits.readable, admits.faultless, admits.storable, admits.free, readable',
    List.forall_mem_nil _⟩

end UpdatesSelf

def UpdatesSelfTo (server : Server) (caller : Uuid) (body : Json) (s left : Store) : Prop :=
  ∃ ctx r, server.UpdatesSelf caller body ctx r ∧ server.Ends ctx r s 200 left

/-- Every request to change the own account is answered with 200 if the store can be reached and the
time can be read back.  It leaves a store, but for the time of the last change of the user, and the
answer shows the row of the user in it. -/
def GrantsSelfUpdate (server : Server) (caller : Uuid) (body : Json) (s left : Store) : Prop :=
  ∀ ctx r, server.UpdatesSelf caller body ctx r → ctx.connected = true →
    ctx.now.isRepresentable = true → ∃ u ∈ left.users, u.id = caller ∧ ∃ time,
      server.ShowsAccount ctx r s u (left.withAccountTime caller time)

/-- Updates of the own account one after another: a body with the members of both does the same, and
the same body again does nothing more. -/
structure SelfUpdatesCompose (server : Server) (caller : Uuid) (s : Store) : Prop where
  together : ∀ p q m s₁ s₂, m.Overlays p q → server.UpdatesSelfTo caller p s s₁ →
    server.UpdatesSelfTo caller q s₁ s₂ → server.GrantsSelfUpdate caller m s s₂
  again : ∀ p s₁, server.UpdatesSelfTo caller p s s₁ → server.GrantsSelfUpdate caller p s₁ s₁

theorem UpdatesSelfTo.admits (sound : s.Sound) (updates : server.UpdatesSelfTo caller body s s') :
    s'.Sound ∧ ∃ u now, s' = s.withAccountRevised caller body now ∧
      (Account.revise body u now).isReadable = true ∧ s.AdmitsSelfUpdate caller body u := by
  obtain ⟨ctx, r, updates, answered, rfl⟩ := updates
  obtain ⟨_, u, admits, readable, left⟩ := updates.admits_of_answered sound answered
  exact ⟨server.handle_sound ctx r sound, u, ctx.now, left, readable, admits⟩

open Store.AdmitsSelfUpdate (withAccountRevised_twice)

theorem selfUpdatesCompose (server : Server) (sound : s.Sound) (caller : Uuid) :
    server.SelfUpdatesCompose caller s := by
  constructor
  · intro p q m s₁ s₂ overlays first second ctx r updates connected timely
    obtain ⟨sound₁, u, before, rfl, _, admits⟩ := first.admits sound
    obtain ⟨_, v, after, rfl, _, admits'⟩ := second.admits sound₁
    have both := admits.overlaid overlays admits'
    have shows := updates.showsAccount_of_admits sound connected timely both
    rw [withAccountRevised_twice sound overlays both admits'.faultless before after ctx.now,
      Account.revise_revise overlays admits'.faultless u before after ctx.now] at shows
    have row := Store.mem_withAccountRevised p before admits.member admits.own
    exact ⟨_, Store.mem_withAccountRevised q after row admits.own, admits.own, _, shows⟩
  · intro p s₁ first ctx r updates connected timely
    obtain ⟨sound₁, u, before, rfl, readable, admits⟩ := first.admits sound
    have admits' := admits.again readable
    have shows := updates.showsAccount_of_admits sound₁ connected timely admits'
    have same := Account.revise_again admits.faultless u before ctx.now
    rw [admits'.withAccountRevised_same sound₁ same, same] at shows
    exact ⟨_, admits'.member, admits'.own, _, shows⟩

/-- In a store that satisfies its constraints, a request to change the own account is refused for the
first thing that speaks against it; else the account is as the body says, nothing else is different but
the time of its last change, and the answer shows it.  Updates compose. -/
theorem account_updates (server : Server) (s : Store) (holds : s.Constrained) :
    (∀ caller body ctx r, server.UpdatesSelf caller body ctx r →
      server.AnswersSelfUpdate caller body ctx r s) ∧
    ∀ caller, server.SelfUpdatesCompose caller s :=
  ⟨fun _ _ _ _ updates => updates.answersSelfUpdate holds.sound,
    fun caller => server.selfUpdatesCompose holds.sound caller⟩

def selfUpdate (body : String) : Request where
  method := .put
  target := "/api/users/me"
  headers := ("content-type", "application/json") :: removal.headers
  body := Text.Utf8.ofString body

theorem selfUpdate_path (text : String) :
    Http.Resource.ofPath? (selfUpdate text).path = some .ownAccount := by
  have path : Http.Resource.ofPath? (selfUpdate "").path = some .ownAccount := by decide +kernel
  exact path

/-- An object with the given texts as its members. -/
def ofTexts (ms : List (String × String)) : Json := .object (ms.map fun m => (m.1, .string m.2))

/-- Texts that are sent in the reverse order of their names are read in the order of their names. -/
theorem leading_ofTexts {ms : List (String × String)} (sorted : ms.Pairwise fun a b => a.1 < b.1) :
    Json.Decoder.json.leading (Text.Utf8.ofString (ofTexts ms.reverse).text) = .ok (ofTexts ms) := by
  have isPlain : Json.Plain Json.greatestDepth (ofTexts ms.reverse) := by
    refine .object fun m hm => ?_
    obtain ⟨_, _, rfl⟩ := List.mem_map.mp hm
    exact .string _
  have inOrder : (ofTexts ms.reverse).reread = ofTexts ms := by
    rw [ofTexts, Json.reread, Json.rereadMembers_eq, List.map_map, ← List.map_reverse,
      List.reverse_reverse]
    exact congrArg Json.object (Json.arranged_of_sorted (List.pairwise_map.mpr sorted))
  rw [Json.Decoder.leading, Json.json_text isPlain, inOrder]
  rfl

theorem selfUpdate_updates {text : String} (ms : List (String × String))
    (sorted : ms.Pairwise fun a b => a.1 < b.1) (isText : (ofTexts ms.reverse).text = text)
    (media : (((selfUpdate text).headers.first? "content-type").map Http.MediaType.isJson).getD false =
      true)
    (small : (selfUpdate text).body.length ≤ Http.greatestBody) :
    plain.UpdatesSelf ann.id (ofTexts ms) firstMoment (selfUpdate text) where
  method := rfl
  path := selfUpdate_path text
  caller := ann_known rfl
  body := decodeBody_of_leading media small (by
    have read := leading_ofTexts sorted
    rw [isText] at read
    exact congrArg Except.toOption read)

def newBio : Json := ofTexts [("bio", " Hi ")]

def newEmail : Json := ofTexts [("email", "a@b")]

def newDetails : Json := ofTexts [("bio", " Hi "), ("email", "a@b")]

theorem newBio_updates :
    plain.UpdatesSelf ann.id newBio firstMoment (selfUpdate "\x7b\"bio\":\" Hi \"\x7d") :=
  selfUpdate_updates _ (by decide) (by decide +kernel) (by decide +kernel) (by decide +kernel)

theorem newEmail_updates :
    plain.UpdatesSelf ann.id newEmail firstMoment (selfUpdate "\x7b\"email\":\"a@b\"\x7d") :=
  selfUpdate_updates _ (by decide) (by decide +kernel) (by decide +kernel) (by decide +kernel)

theorem newDetails_updates : plain.UpdatesSelf ann.id newDetails firstMoment
    (selfUpdate "\x7b\"email\":\"a@b\",\"bio\":\" Hi \"\x7d") :=
  selfUpdate_updates _ (by decide) (by decide +kernel) (by decide +kernel) (by decide +kernel)

theorem newDetails_overlays : newDetails.Overlays newEmail newBio :=
  Json.overlays_append [("email", .string "a@b")] [("bio", .string " Hi ")]

theorem ann_admits (body : Json) (hu : u ∈ s.users) (own : u.id = ann.id)
    (readable : u.isReadable = true) (fits : u.fits = true)
    (made : (ProfileChange.ofBody body u).isOk = true)
    (fits' : (Account.revise body u firstMoment.now).fits = true)
    (nameless : Account.nameIn body = none) : s.AdmitsSelfUpdate ann.id body u where
  member := hu
  own := own
  readable := readable
  faultless faulty := by
    obtain ⟨f, failed, _⟩ := ProfileChange.ofBody_of_faulty faulty u
    rw [failed] at made
    cases made
  storable := (Account.revise_fits_iff fits).mp fits'
  free := by
    rintro ⟨v, _, _, isName⟩
    rw [nameless] at isName
    cases isName

theorem account_updates_site :
    siteStore.Constrained ∧
      plain.AnswersSelfUpdate ann.id newEmail firstMoment (selfUpdate "\x7b\"email\":\"a@b\"\x7d")
        siteStore ∧
      newDetails.Overlays newEmail newBio ∧
        ∃ s₁ s₂, plain.UpdatesSelfTo ann.id newEmail siteStore s₁ ∧
          plain.UpdatesSelfTo ann.id newBio s₁ s₂ ∧
            ∃ u ∈ s₂.users, u.id = ann.id ∧ ∃ time, plain.ShowsAccount firstMoment
              (selfUpdate "\x7b\"email\":\"a@b\",\"bio\":\" Hi \"\x7d") siteStore u
              (s₂.withAccountTime ann.id time) := by
  have sound := siteStore_sound
  obtain ⟨answers, composes⟩ := account_updates plain siteStore sound.constrained
  have timely : firstMoment.now.isRepresentable = true := by decide
  have annThere : ann ∈ siteStore.users := List.mem_cons_self
  have emailAdmitted : siteStore.AdmitsSelfUpdate ann.id newEmail ann :=
    ann_admits newEmail annThere rfl (by decide) (by decide +kernel) (by decide +kernel)
      (by decide +kernel) (by decide +kernel)
  have first := newEmail_updates.showsAccount_of_admits sound rfl timely emailAdmitted
  have sound₁ := plain.handle_sound firstMoment (selfUpdate "\x7b\"email\":\"a@b\"\x7d") sound
  rw [first.1.2] at sound₁
  have bioAdmitted := ann_admits newBio
    (Store.mem_withAccountRevised newEmail firstMoment.now annThere rfl) rfl
    (by decide +kernel) (by decide +kernel) (by decide +kernel) (by decide +kernel)
    (by decide +kernel)
  have second := newBio_updates.showsAccount_of_admits sound₁ rfl timely bioAdmitted
  have emailTo : plain.UpdatesSelfTo ann.id newEmail siteStore _ :=
    ⟨_, _, newEmail_updates, first.1⟩
  have bioTo : plain.UpdatesSelfTo ann.id newBio _ _ := ⟨_, _, newBio_updates, second.1⟩
  exact ⟨sound.constrained, answers _ _ _ _ newEmail_updates, newDetails_overlays, _, _, emailTo,
    bioTo, (composes ann.id).together _ _ _ _ _ newDetails_overlays emailTo bioTo firstMoment _
      newDetails_updates rfl timely⟩

/-- A body that cannot be read is refused. -/
theorem status_of_unread_update {f : Failure} (method : r.method = .put)
    (path : Http.Resource.ofPath? r.path = some .ownAccount)
    (known : server.caller? ctx.now r = some caller)
    (unread : r.decodeBody Json.Decoder.json = .error f) :
    (server.handle ctx r s).1.status = f.problem.status := by
  obtain ⟨who, isWho, _⟩ := identify_of_caller? known
  have refused : server.callFor? ctx.now r .ownAccount = some (.error f) := by
    rw [callFor?, method, isWho]
    simp only [Http.Resource.Verb.ofMethod?, Option.bind_some, Http.Resource.callFor?, unread]
    rfl
  have served : server.serve ctx r s = (.ofFailure f, s) := by
    rw [serve, path]
    simp only [refused]
  rw [handle, if_neg (by rw [method]; decide), served]
  rfl

theorem nested_unread : (selfUpdate (Json.nested 127).text).decodeBody Json.Decoder.json =
    .error (.invalidBody (.ofJson .malformed)) := by
  have deep : (selfUpdate (Json.nested 127).text).body = List.replicate (Json.greatestDepth + 1)
      (Json.octet '[') ++ List.replicate 128 (Json.octet ']') := by
    rw [selfUpdate, Text.Utf8.ofString, Json.text, String.toList_ofList]
    decide +kernel
  have small : ¬Http.greatestBody < (selfUpdate (Json.nested 127).text).body.length := by
    rw [deep]
    decide +kernel
  have media : (((selfUpdate (Json.nested 127).text).headers.first? "content-type").map
      Http.MediaType.isJson).getD false = true := by
    decide +kernel
  rw [Request.decodeBody, media, if_neg (by decide), if_neg small, deep, Json.Decoder.leading,
    Json.Decoder.json, Json.readValue_of_deep]
  rfl

/-- Not every value is accepted of every user: 500 is told where the row cannot be read back, and 400
for a value with too many arrays in one another, though it has no member. -/
theorem ancient_account_not_updated :
    ancientAccount.Constrained ∧ firstMoment.connected = true ∧ ancientAnn ∈ ancientAccount.users ∧
      plain.UpdatesSelf ancientAnn.id (.object []) firstMoment (selfUpdate "\x7b\x7d") ∧
        (plain.handle firstMoment (selfUpdate "\x7b\x7d") ancientAccount).1.status = 500 ∧
          (plain.handle firstMoment (selfUpdate (Json.nested 127).text) annAlone).1.status = 400 := by
  have sound := ancientAccount_sound
  have updates : plain.UpdatesSelf ancientAnn.id (.object []) firstMoment (selfUpdate "\x7b\x7d") :=
    selfUpdate_updates [] .nil (by decide +kernel) (by decide +kernel) (by decide +kernel)
  obtain ⟨u, hu, own, answers⟩ := (updates.answersSelfUpdate sound).of_otherwise (by
    simp only [List.forall_mem_cons]
    exact ⟨by decide, fun missing => missing ancientAnn List.mem_cons_self rfl,
      List.forall_mem_nil _⟩)
  obtain rfl : u = ancientAnn := List.mem_singleton.mp hu
  exact ⟨sound.constrained, rfl, List.mem_cons_self, updates, (answers.1 (by decide)).1,
    status_of_unread_update rfl (selfUpdate_path _) (ann_known rfl) nested_unread⟩

end Server

end GigBoard
