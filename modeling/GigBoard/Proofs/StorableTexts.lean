import GigBoard.Proofs.Constraints
import GigBoard.Proofs.Searching

/-!
# The texts of a call

A call brings texts along that the store is to keep or to look for.  If each of them fits its column,
then every row that is made for the call fits its table.
-/

set_option autoImplicit false

namespace GigBoard

open Account (ProfileChange Registration User)
open Delivery (Milestone)
open Hiring (Job JobChange JobChangeForm JobForm JobQuery MilestoneForm)

variable {ctx : Context}

/-! ## The texts of a request -/

/-- A column for so many characters, or for any number of them, holds a text. -/
def Text.Fits (size : Option Nat) (t : String) : Prop := NoNul t ∧ ∀ n, size = some n → t.length ≤ n

def Json.textAt? (body : Json) (name : String) : Option String :=
  match body.member? name with
  | some (.string t) => some t
  | _ => none

/-- The texts of a call that the store is to keep or to look for, without the blanks around them where
these are left out, each with the size of its column if that is bounded. -/
def Call.texts : Call → List (Option Nat × Option String)
  | .register form => [
      (some 64, form.walletAddress.map Account.normalWallet),
      (some 100, form.username.map Text.trim),
      (some 255, form.email.map Text.trim),
      (none, form.bio.map Text.trim),
      (none, form.avatarUrl.map Text.trim)]
  | .updateSelf _ body => [
      (some 100, (body.textAt? "username").map Text.trim),
      (some 255, (body.textAt? "email").map Text.trim),
      (none, (body.textAt? "bio").map Text.trim),
      (none, (body.textAt? "avatarUrl").map Text.trim)]
  | .searchJobs query => [
      (none, query.category.map Text.trim),
      (none, query.search.map Text.trim)]
  | .postJob _ form =>
      (some 255, form.title.map Text.trim) ::
      (none, form.description.map Text.trim) ::
      (some 100, form.category.map Text.trim) ::
      (form.milestones.getD []).flatMap fun m =>
        [(some 255, m.title.map Text.trim), (none, m.description.map Text.trim)]
  | .updateJob _ _ form => [
      (some 255, form.title.map Text.trim),
      (none, form.description.map Text.trim),
      (some 100, form.category.map Text.trim)]
  | .applyForJob _ _ form => [(none, form.coverLetter.map Text.trim)]
  | .writeReview _ form => [(none, form.comment.map Text.trim)]
  | .sendMessage _ form => [(none, form.content)]
  | _ => []

def Call.Storable (call : Call) : Prop := ∀ p ∈ call.texts, ∀ t, p.2 = some t → Text.Fits p.1 t

theorem Call.exists_of_not_storable {call : Call} (unstorable : ¬call.Storable) :
    ∃ size text, (size, some text) ∈ call.texts ∧ ¬Text.Fits size text := by
  unfold Call.Storable at unstorable
  push Not at unstorable
  obtain ⟨⟨size, _⟩, member, text, rfl, unfit⟩ := unstorable
  exact ⟨size, text, member, unfit⟩

/-! ## Texts that fit -/

namespace Text

variable {size : Option Nat} {given : Option String} {t : String}

theorem Fits.fitsColumn {n : Nat} (fits : Fits (some n) t) : fitsColumn n t = true :=
  (fitsColumn_iff n t).mpr ⟨fits.2 n rfl, fits.1⟩

theorem Fits.isStorable (fits : Fits size t) : isStorable t = true := (isStorable_iff t).mpr fits.1

theorem fits_some_iff {n : Nat} : Fits (some n) t ↔ fitsColumn n t = true := by
  refine ⟨Fits.fitsColumn, fun fits => ?_⟩
  rw [fitsColumn_iff] at fits
  exact ⟨fits.2, fun m is => Option.some.inj is ▸ fits.1⟩

theorem fits_none_iff : Fits none t ↔ isStorable t = true := by
  refine ⟨Fits.isStorable, fun stored => ⟨(isStorable_iff t).mp stored, ?_⟩⟩
  rintro _ ⟨⟩

theorem mem_dropWhile_isBlank {c : Char} {cs : List Char} (filled : isBlank c = false) :
    c ∈ cs.dropWhile isBlank ↔ c ∈ cs := by
  refine ⟨fun kept => (List.dropWhile_sublist isBlank).subset kept, fun member => ?_⟩
  rw [← List.takeWhile_append_dropWhile (p := isBlank) (l := cs), List.mem_append] at member
  refine member.resolve_left fun left => ?_
  rw [List.mem_takeWhile_imp left] at filled
  cases filled

/-- U+0000 is not blank, so it is never left out. -/
theorem noNul_trim_iff : NoNul (trim t) ↔ NoNul t := by
  have filled : isBlank '\x00' = false := by decide
  rw [NoNul, NoNul, trim, String.toList_ofList, trimmed, dropBlankEnd, List.mem_reverse,
    mem_dropWhile_isBlank filled, List.mem_reverse, mem_dropWhile_isBlank filled]

def HoldsNul (given : Option String) : Prop := ∃ t, given = some t ∧ ¬NoNul t

theorem isStorable_trim_getD_iff : isStorable (trim (given.getD "")) = true ↔ ¬HoldsNul given := by
  rw [isStorable_iff, noNul_trim_iff, HoldsNul]
  cases given with
  | none => simp [NoNul]
  | some g => simp

theorem fits_empty (size : Option Nat) : Fits size "" := ⟨by decide, fun _ _ => Nat.zero_le _⟩

theorem fits_of_nonBlank? (fits : ∀ u, given.map trim = some u → Fits size u)
    (left : given.bind nonBlank? = some t) : Fits size t := by
  obtain ⟨g, isGiven, left⟩ := Option.bind_eq_some_iff.mp left
  apply fits
  rw [isGiven, Option.map_some, (nonBlank?_eq_some_iff.mp left).1]

/-- What holds of a text with nothing around it holds of what stands for a text that may be missing. -/
theorem forall_trim_getD_iff {p : String → Prop} (empty : p "") :
    (∀ u, given.map trim = some u → p u) ↔ p (trim (given.getD "")) := by
  cases given with
  | none => exact iff_of_true nofun empty
  | some g => simp

theorem fits_getD (fits : ∀ u, given.map trim = some u → Fits size u) :
    Fits size (trim (given.getD "")) :=
  (forall_trim_getD_iff (fits_empty size)).mp fits

end Text

theorem Hiring.IsText.forall_trim_iff {given : Option String} {t : String} {p : String → Prop}
    (isText : IsText given t) : (∀ u, given.map Text.trim = some u → p u) ↔ p t := by
  obtain ⟨written, rfl, rfl, _⟩ := isText
  simp

namespace Account

theorem Registration.toUser_fits {form : Registration} {id : Uuid} {now : Timestamp} {u : User}
    (made : form.toUser id now = .ok u) (storable : (Call.register form).Storable) :
    u.fits = true := by
  simp only [Call.Storable, Call.texts, List.forall_mem_cons] at storable
  obtain ⟨wallet, username, email, bio, avatarUrl, _⟩ := storable
  obtain ⟨w, name, role, isWallet, isUsername, rfl⟩ := toUser_parts made
  have walletFits : Text.Fits (some 64) (Text.LowerCase.ofString w) := by
    obtain ⟨given, isGiven, left⟩ := Option.bind_eq_some_iff.mp isWallet
    apply wallet
    rw [isGiven, Option.map_some, normalWallet, (Text.nonBlank?_eq_some_iff.mp left).1]
  simp only [User.fits, Bool.and_eq_true, Option.all_eq_true]
  refine ⟨⟨⟨⟨walletFits.fitsColumn, ?_⟩, fun t is => ?_⟩, fun t is => ?_⟩, fun t is => ?_⟩
  · exact (Text.fits_of_nonBlank? username isUsername).fitsColumn
  · exact (Text.fits_of_nonBlank? email is).fitsColumn
  · exact (Text.fits_of_nonBlank? bio is).isStorable
  · exact (Text.fits_of_nonBlank? avatarUrl is).isStorable

namespace ProfileChange

variable {body : Json} {field : String}

theorem usernameOf_text {name : String} (asked : usernameOf body = .ok (some name)) :
    (body.textAt? "username").map Text.trim = some name := by
  unfold usernameOf at asked
  unfold Json.textAt?
  split at asked
  · cases asked
  · rename_i s member
    split at asked
    · cases asked
    · rename_i left
      cases asked
      rw [member, Option.map_some, (Text.nonBlank?_eq_some_iff.mp left).1]
  · cases asked

theorem patchOf_text {patch : Account.TextPatch} {t : String}
    (asked : patchOf body field = .ok patch) (replaces : patch.change? = some (some t)) :
    (body.textAt? field).map Text.trim = some t := by
  unfold patchOf Account.TextPatch.ofMember? at asked
  unfold Json.textAt?
  cases member : body.member? field with
  | none =>
      rw [member] at asked
      cases asked
      cases replaces
  | some value =>
      rw [member] at asked
      cases value with
      | string s =>
          cases left : Text.nonBlank? s with
          | none =>
              simp only [left] at asked
              cases asked
              cases replaces
          | some text =>
              simp only [left] at asked
              cases asked
              cases replaces
              rw [Option.map_some, (Text.nonBlank?_eq_some_iff.mp left).1]
      | null =>
          cases asked
          cases replaces
      | _ => cases asked

/-- A patched text is one of the request, or stays. -/
theorem apply_fits {patch : Account.TextPatch} {current : Option String} {p : String → Prop}
    (asked : patchOf body field = .ok patch)
    (new : ∀ t, (body.textAt? field).map Text.trim = some t → p t)
    (old : ∀ t, current = some t → p t) : ∀ t, patch.apply current = some t → p t := by
  intro t is
  unfold Account.TextPatch.apply at is
  cases changed : patch.change? with
  | none =>
      rw [changed] at is
      exact old t is
  | some content =>
      rw [changed, Option.getD_some] at is
      exact new t (patchOf_text asked (by rw [changed, is]))

theorem ofBody_fits {caller : Uuid} {u : User} {change : ProfileChange} {now : Timestamp}
    (asked : ofBody body u = .ok change) (fits : u.fits = true)
    (storable : (Call.updateSelf caller body).Storable) : (change.apply u now).fits = true := by
  simp only [Call.Storable, Call.texts, List.forall_mem_cons] at storable
  obtain ⟨username, email, bio, avatarUrl, _⟩ := storable
  unfold ofBody at asked
  obtain ⟨name, isName, asked⟩ := bind_ok asked
  obtain ⟨_, isEmail, asked⟩ := bind_ok asked
  obtain ⟨_, isBio, asked⟩ := bind_ok asked
  obtain ⟨_, isAvatarUrl, asked⟩ := bind_ok asked
  cases asked
  simp only [User.fits, Bool.and_eq_true, Option.all_eq_true] at fits ⊢
  obtain ⟨⟨⟨⟨walletFits, nameFits⟩, emailFits⟩, bioFits⟩, avatarUrlFits⟩ := fits
  refine ⟨⟨⟨⟨walletFits, ?_⟩, ?_⟩, ?_⟩, ?_⟩
  · simp only [apply]
    cases changed : name.filter fun t => decide (t ≠ u.username) with
    | none => exact nameFits
    | some t =>
        rw [(Option.filter_eq_some_iff.mp changed).1] at isName
        exact (username t (usernameOf_text isName)).fitsColumn
  · exact apply_fits isEmail (fun t is => (email t is).fitsColumn) emailFits
  · exact apply_fits isBio (fun t is => (bio t is).isStorable) bioFits
  · exact apply_fits isAvatarUrl (fun t is => (avatarUrl t is).isStorable) avatarUrlFits

end ProfileChange

end Account

namespace Hiring

theorem MilestoneForm.Makes.fits_iff {form : MilestoneForm} {key job : Uuid} {place : Nat}
    {now : Timestamp} {m : Milestone} (made : form.Makes key job place now m) :
    ((∀ t, form.title.map Text.trim = some t → Text.Fits (some 255) t) ∧
      ∀ t, form.description.map Text.trim = some t → Text.Fits none t) ↔ m.fits = true := by
  rw [Milestone.fits, Bool.and_eq_true, ← Text.fits_some_iff, ← Text.fits_none_iff,
    made.title.forall_trim_iff, made.description, Text.forall_trim_getD_iff (Text.fits_empty _)]

theorem JobForm.Makes.fits_iff {form : JobForm} {caller : Uuid} {job : Job} {ms : List Milestone}
    (makes : form.Makes caller ctx job ms) :
    (Call.postJob caller form).Storable ↔ job.fits = true ∧ ∀ m ∈ ms, m.fits = true := by
  have ofJob : job.fits = true ↔
      (∀ t, form.title.map Text.trim = some t → Text.Fits (some 255) t) ∧
        (∀ t, form.description.map Text.trim = some t → Text.Fits none t) ∧
          ∀ t, form.category.map Text.trim = some t → Text.Fits (some 100) t := by
    rw [makes.title.forall_trim_iff, makes.category.forall_trim_iff,
      Text.forall_trim_getD_iff (Text.fits_empty _), ← makes.description, Job.fits]
    simp only [Bool.and_eq_true, ← Text.fits_some_iff, ← Text.fits_none_iff, and_assoc]
  rw [ofJob, ← makes.forall_forms_iff MilestoneForm.Makes.fits_iff]
  simp only [Call.Storable, Call.texts, List.forall_mem_cons, List.forall_mem_flatMap,
    List.not_mem_nil, IsEmpty.forall_iff, implies_true, and_true, and_assoc]

theorem JobChange.filledText_trim {field t : String} {value : Option String}
    (given : filledText field value = .ok (some t)) : value.map Text.trim = some t := by
  unfold filledText at given
  split at given
  · cases given
  · split at given
    · cases given
    · rename_i left
      cases given
      rw [Option.map_some, (Text.nonBlank?_eq_some_iff.mp left).1]

/-- A text that is changed is one of the request, or stays. -/
theorem JobChange.getD_of {p : String → Prop} {new : Option String} {old : String}
    (changed : ∀ t, new = some t → p t) (kept : p old) : p (new.getD old) := by
  cases new with
  | none => exact kept
  | some t => exact changed t rfl

theorem JobChange.ofForm_fits {form : JobChangeForm} {caller id : Uuid} {j : Job}
    {change : JobChange} {now : Timestamp} (asked : ofForm form j = .ok change)
    (fits : j.fits = true) (storable : (Call.updateJob caller id form).Storable) :
    (change.apply j now).fits = true := by
  simp only [Call.Storable, Call.texts, List.forall_mem_cons] at storable
  obtain ⟨title, description, category, _⟩ := storable
  unfold ofForm at asked
  obtain ⟨_, isTitle, asked⟩ := bind_ok asked
  obtain ⟨_, isCategory, asked⟩ := bind_ok asked
  obtain ⟨_, _, asked⟩ := bind_ok asked
  obtain ⟨_, _, asked⟩ := bind_ok asked
  obtain ⟨_, _, asked⟩ := bind_ok asked
  cases asked
  simp only [Job.fits, Bool.and_eq_true] at fits ⊢
  refine ⟨⟨?_, ?_⟩, ?_⟩
  · refine getD_of (p := fun t => Text.fitsColumn 255 t = true) ?_ fits.1.1
    rintro t rfl
    exact (title t (filledText_trim isTitle)).fitsColumn
  · refine getD_of (p := fun t => Text.isStorable t = true) ?_ fits.1.2
    intro t is
    exact (description t is).isStorable
  · refine getD_of (p := fun t => Text.fitsColumn 100 t = true) ?_ fits.2
    rintro t rfl
    exact (category t (filledText_trim isCategory)).fitsColumn

theorem around_isSendable {t : String} (fits : Text.NoNul t) :
    ((Text.Pattern.around t.toList).all fun c => c.toNat != 0) = true := by
  have storable := (Text.isStorable_iff t).mpr fits
  rw [Text.isStorable, List.all_eq_true] at storable
  rw [List.all_eq_true]
  intro c hc
  rcases List.mem_cons.mp hc with rfl | hc
  · rfl
  rcases List.mem_append.mp hc with hc | hc
  · obtain ⟨d, hd, isPart⟩ := List.mem_flatMap.mp hc
    split at isPart
    · rcases List.mem_pair.mp isPart with rfl | rfl
      · rfl
      · exact storable _ hd
    · rw [List.mem_singleton.mp isPart]
      exact storable _ hd
  · rw [List.mem_singleton.mp hc]
    rfl

theorem JobQuery.filter_isSendable {q : JobQuery} {f : Store.JobFilter}
    (filtered : q.filter = .ok f) (storable : (Call.searchJobs q).Storable) :
    f.isSendable = true := by
  simp only [Call.Storable, Call.texts, List.forall_mem_cons] at storable
  obtain ⟨category, search, _⟩ := storable
  obtain ⟨isCategory, isPattern, _⟩ := filter_ok filtered
  rw [Store.JobFilter.isSendable, isCategory, isPattern, Bool.and_eq_true, Option.all_map]
  simp only [Option.all_eq_true]
  exact ⟨fun t left => (Text.fits_of_nonBlank? category left).isStorable,
    fun t left => around_isSendable (Text.fits_of_nonBlank? search left).1⟩

end Hiring

end GigBoard
