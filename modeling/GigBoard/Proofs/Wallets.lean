import GigBoard.Maintenance
import GigBoard.Proofs.Authentication
import GigBoard.Proofs.LowerCase
import GigBoard.Proofs.Sending
import GigBoard.Proofs.StorableTexts
import GigBoard.Proofs.Tokens

/-!
# One wallet is one account

A wallet may be written in many ways, with blanks around it and in either case.  Registration keeps one
form of it and nothing ever changes that, so no two accounts have wallets that differ only in how they
are written, and the operator gets a token for an account by any way of writing its wallet.
-/

set_option autoImplicit false

namespace GigBoard

open Account (Registration User UserView normalWallet)
open Http (Request)

/-! ## What a registration keeps -/

namespace Account.Registration

/-- A registration says all that it must: a wallet and a name, neither of them blank, and a role. -/
structure Names (form : Registration) (wallet username : String) (role : Role) : Prop where
  isWallet : form.walletAddress = some wallet
  walletFilled : Text.trim wallet ≠ ""
  isUsername : form.username = some username
  usernameFilled : Text.trim username ≠ ""
  isRole : ∃ name, form.role = some name ∧ Named.read name = .ok role

variable {form : Registration} {wallet username : String} {role : Role} {id : Uuid}
  {now : Timestamp} {u : User}

theorem Names.makes (names : form.Names wallet username role) (id : Uuid) (now : Timestamp) :
    ∃ u, form.toUser id now = .ok u ∧ u.walletAddress = normalWallet wallet ∧
      u.username = Text.trim username ∧ u.role = role := by
  obtain ⟨name, isRole, read⟩ := names.isRole
  have isWallet : form.walletAddress.bind Text.nonBlank? = some (Text.trim wallet) := by
    rw [names.isWallet, Option.bind_some, Text.nonBlank?_eq_some_iff]
    exact ⟨rfl, names.walletFilled⟩
  have isUsername : form.username.bind Text.nonBlank? = some (Text.trim username) := by
    rw [names.isUsername, Option.bind_some, Text.nonBlank?_eq_some_iff]
    exact ⟨rfl, names.usernameFilled⟩
  simp only [toUser, isWallet, isUsername, isRole, read]
  exact ⟨_, rfl, rfl, rfl, rfl⟩

/-- Whatever user a registration makes has the form of a wallet that is kept. -/
theorem toUser_normal (made : form.toUser id now = .ok u) :
    normalWallet u.walletAddress = u.walletAddress := by
  obtain ⟨w, _, _, isWallet, _, rfl⟩ := toUser_parts made
  obtain ⟨given, _, left⟩ := Option.bind_eq_some_iff.mp isWallet
  have kept : Text.LowerCase.ofString w = normalWallet given := by
    rw [normalWallet, (Text.nonBlank?_eq_some_iff.mp left).1]
  rw [kept, Account.normalWallet_normalWallet]

end Account.Registration

/-! ## Wallets over runs -/

def Store.NormalWallets (s : Store) : Prop :=
  ∀ u ∈ s.users, normalWallet u.walletAddress = u.walletAddress

def Store.HasAccount (s : Store) (id : Uuid) (wallet : String) (role : Role) : Prop :=
  ∃ u ∈ s.users, u.id = id ∧ u.walletAddress = wallet ∧ u.role = role

variable {ctx : Context} {r : Request} {s s' : Store} {call : Call}

theorem Effect.normalWallets (effect : Effect ctx s call s') (sound : s.Sound)
    (normal : s.NormalWallets) : s'.NormalWallets := by
  by_cases registers : ∃ form, call = .register form
  · obtain ⟨form, rfl⟩ := registers
    cases effect with
    | nothing => exact normal
    | registered made added =>
        obtain ⟨_, _, rfl⟩ := Store.addUser_ok added
        exact Rows.forall_mem_append_one normal (Registration.toUser_normal made)
  · have differences : Differences call.caller? False s s' :=
      effect.differences sound (fun _ own => own) fun form is => registers ⟨form, is⟩
    intro u' hu'
    obtain ⟨u, hu, same⟩ : ∃ u ∈ s.users, u.id = u'.id := by
      by_contra isNew
      push Not at isNew
      exact differences.users.added u' hu' isNew
    -- Whoever was there before has the wallet still.
    rcases differences.users.changed u hu u' hu' same.symm with rfl | ⟨_, changed⟩
    · exact normal u' hu
    · rw [changed]
      exact normal u hu

namespace Server

variable {server : Server}

theorem handle_normalWallets (server : Server) (ctx : Context) (r : Request) (sound : s.Sound)
    (normal : s.NormalWallets) : (server.handle ctx r s).2.NormalWallets := by
  rcases server.handle_effect ctx r s with same | ⟨call, _, effect⟩
  · rw [same]
    exact normal
  · exact effect.normalWallets sound normal

theorem run_normalWallets (server : Server) (steps : List (Context × Request)) :
    (server.run steps .empty).NormalWallets := by
  have none : Store.empty.NormalWallets := fun _ hu => nomatch hu
  have kept := server.run_keeps (p := fun s => s.Sound ∧ s.NormalWallets)
    (fun ctx r _ before =>
      ⟨server.handle_sound ctx r before.1, server.handle_normalWallets ctx r before.1 before.2⟩)
    steps ⟨Store.empty_sound, none⟩
  exact kept.2

/-- No request takes an account away, gives it another wallet or another role. -/
theorem handle_hasAccount (server : Server) (ctx : Context) (r : Request) (sound : s.Sound)
    {id : Uuid} {wallet : String} {role : Role} (has : s.HasAccount id wallet role) :
    (server.handle ctx r s).2.HasAccount id wallet role := by
  have differences := server.handle_differences ctx r sound
  obtain ⟨u, hu, rfl, rfl, rfl⟩ := has
  obtain ⟨u', hu', same⟩ : ∃ u' ∈ (server.handle ctx r s).2.users, u'.id = u.id := by
    by_contra gone
    push Not at gone
    exact differences.users.removed u hu gone
  rcases differences.users.changed u hu u' hu' same with rfl | ⟨_, changed⟩
  · exact ⟨u', hu', rfl, rfl, rfl⟩
  · refine ⟨u', hu', same, ?_, ?_⟩
    · rw [changed]
    · rw [changed]

theorem run_hasAccount (server : Server) (steps : List (Context × Request)) (sound : s.Sound)
    {id : Uuid} {wallet : String} {role : Role} (has : s.HasAccount id wallet role) :
    (server.run steps s).Sound ∧ (server.run steps s).HasAccount id wallet role :=
  server.run_keeps (p := fun s => s.Sound ∧ s.HasAccount id wallet role)
    (fun ctx r _ before =>
      ⟨server.handle_sound ctx r before.1, server.handle_hasAccount ctx r before.1 before.2⟩)
    steps ⟨sound, has⟩

end Server

/-! ## Tokens for wallets -/

/-- A report hands a token out that carries the identity of a user. -/
def Report.Hands (report : Report) (service : Token.Service) (who : Token.Identity) : Prop :=
  ∃ c : Token.Claims, c.identity = who ∧ report.code = 0 ∧
    report.output = String.ofList (service.sign c) ++ "\n" ∧
      ∀ later, service.verify later (service.sign c) = service.checkClaims later c

def Report.Fails (report : Report) : Prop := report.code ≠ 0 ∧ report.output = ""

namespace Maintenance

/-- The settings can be used, and what is minted now expires at a time that can be told. -/
structure Usable (env : Environment) (now : Timestamp) (service : Token.Service) : Prop where
  settings : ∃ settings, Settings.ofEnvironment env = .ok settings ∧
    Token.Service.ofSettings settings = .ok service
  expiry : ∀ who, ∃ c, service.claims now who = .ok c

variable {env : Environment} {now : Timestamp} {service : Token.Service} {v : String}

theorem mintFor_hands {settings : Settings} {u : User}
    (isService : Token.Service.ofSettings settings = .ok service)
    (expiry : ∀ who, ∃ c, service.claims now who = .ok c) :
    (mintFor settings now u).Hands service ⟨u.id, u.walletAddress, Named.name u.role⟩ := by
  obtain ⟨c, claimed⟩ := expiry ⟨u.id, u.walletAddress, Named.name u.role⟩
  have fit := Token.Service.claims_fit claimed
  refine ⟨c, ?_, ?_, ?_, fun later => service.verify_sign later fit⟩
  · simp only [Token.Service.claims] at claimed
    split at claimed
    · cases claimed
      rfl
    · cases claimed
  all_goals
    simp only [mintFor, isService, Token.Service.mint, claimed, Except.map]
    rfl

theorem issueToken_hands {settings : Settings} {id : Uuid} {wallet : String} {role : Role}
    (isService : Token.Service.ofSettings settings = .ok service)
    (expiry : ∀ who, ∃ c, service.claims now who = .ok c) (sound : s.Sound) (readable : s.Readable)
    (has : s.HasAccount id wallet role) (isWallet : normalWallet v = wallet) :
    (issueToken settings now v (some s)).Hands service ⟨id, wallet, Named.name role⟩ := by
  obtain ⟨u, hu, rfl, rfl, rfl⟩ := has
  have storable : Text.isStorable u.walletAddress = true := by
    rw [Text.isStorable_iff]
    exact (sound.constrained.userTexts u hu).1.2
  have found := sound.keyed.wallet.find?_eq hu isWallet.symm
  have read : Store.userByWallet? (normalWallet v) s = .ok (some u) := by
    rw [Store.userByWallet?, isWallet, if_pos storable]
    rw [isWallet] at found
    exact Store.readRow_of_found readable.users found
  simp only [issueToken, read]
  exact mintFor_hands isService expiry

theorem issueToken_fails {settings : Settings}
    (unknown : ∀ u ∈ s.users, u.walletAddress ≠ normalWallet v) :
    (issueToken settings now v (some s)).Fails := by
  have missing : s.users.find? (fun u => decide (u.walletAddress = normalWallet v)) = none := by
    simpa using unknown
  have read : Store.userByWallet? (normalWallet v) s = .error .rejected ∨
      Store.userByWallet? (normalWallet v) s = .ok none := by
    rw [Store.userByWallet?]
    split
    · rw [missing]
      exact .inr rfl
    · exact .inl rfl
  rcases read with read | read
  · simp only [issueToken, read]
    exact ⟨by decide, rfl⟩
  · simp only [issueToken, read]
    exact ⟨by simp [Report.failure], rfl⟩

end Maintenance

/-! ## The answer to a registration -/

namespace Store

variable {u : User}

theorem addUser_of_taken (fits : u.fits = true)
    (taken : ∃ v ∈ s.users, v.walletAddress = u.walletAddress ∨ v.username = u.username) :
    addUser u s = .error .duplicate := by
  obtain ⟨v, hv, same⟩ := taken
  have clashes : (s.users.any fun v =>
      v.id = u.id || v.walletAddress = u.walletAddress || v.username = u.username) = true := by
    rw [List.any_eq_true]
    refine ⟨v, hv, ?_⟩
    rcases same with same | same <;> simp [same]
  rw [addUser, fits, clashes]
  rfl

theorem addUser_of_new (fits : u.fits = true) (isNew : ∀ v ∈ s.users, v.id ≠ u.id)
    (free : ¬∃ v ∈ s.users, v.walletAddress = u.walletAddress ∨ v.username = u.username) :
    addUser u s = .ok ((), { s with users := s.users ++ [u] }) := by
  push Not at free
  have apart : (s.users.any fun v =>
      v.id = u.id || v.walletAddress = u.walletAddress || v.username = u.username) = false := by
    rw [List.any_eq_false]
    intro v hv
    simp [isNew v hv, (free v hv).1, (free v hv).2]
  rw [addUser, fits, apart]
  rfl

end Store

namespace Account

variable {form : Registration} {u : User}

theorem register_of_taken (connected : ctx.connected = true)
    (made : form.toUser (ctx.freshId 0) ctx.now = .ok u) (fits : u.fits = true)
    (taken : ∃ v ∈ s.users, v.walletAddress = u.walletAddress ∨ v.username = u.username) :
    register form ctx s = (.error .alreadyRegistered, s) := by
  have refused : Action.change (Store.addUser u) (Failure.alreadyRegistered.onDuplicate) ctx s =
      (.error .alreadyRegistered, s) :=
    Action.change_of_error (Store.addUser_of_taken fits taken)
  change (Action.ofExcept (form.toUser (ctx.freshId 0) ctx.now) >>= _) ctx s = _
  rw [made, Action.bind_of_ok rfl, Action.bind_of_ok (Action.connect_of_connected connected),
    Action.bind_of_error refused]

theorem register_of_new (connected : ctx.connected = true)
    (made : form.toUser (ctx.freshId 0) ctx.now = .ok u) (fits : u.fits = true)
    (timely : u.isReadable = true) (isNew : ∀ v ∈ s.users, v.id ≠ u.id)
    (free : ¬∃ v ∈ s.users, v.walletAddress = u.walletAddress ∨ v.username = u.username) :
    register form ctx s = (.ok (.ofUser u), { s with users := s.users ++ [u] }) := by
  have added : Action.change (Store.addUser u) (Failure.alreadyRegistered.onDuplicate) ctx s =
      (.ok (), { s with users := s.users ++ [u] }) :=
    Action.change_of_ok (Store.addUser_of_new fits isNew free)
  have stored : Store.user? u.id { s with users := s.users ++ [u] } = .ok (some u) := by
    rw [Store.user?, Rows.find?_append_one User.id isNew]
    simp [Store.readRow, timely]
  change (Action.ofExcept (form.toUser (ctx.freshId 0) ctx.now) >>= _) ctx s = _
  rw [made, Action.bind_of_ok rfl, Action.bind_of_ok (Action.connect_of_connected connected),
    Action.bind_of_ok added, Action.bind_of_ok (Action.query_of_ok stored)]
  rfl

end Account

namespace Server

variable {server : Server}

/-- A store to which the service comes from empty tables, at times that can be read back. -/
def Reaches (server : Server) (s : Store) : Prop :=
  ∃ past : List (Context × Request),
    (∀ step ∈ past, step.1.now.isRepresentable = true) ∧ server.run past .empty = s

namespace Reaches

theorem sound (reached : server.Reaches s) : s.Sound := by
  obtain ⟨past, _, rfl⟩ := reached
  exact server.run_sound past

theorem normalWallets (reached : server.Reaches s) : s.NormalWallets := by
  obtain ⟨past, _, rfl⟩ := reached
  exact server.run_normalWallets past

theorem readable (reached : server.Reaches s) : s.Readable := by
  obtain ⟨past, timely, rfl⟩ := reached
  exact server.run_readable past Store.empty_readable timely

end Reaches

structure Registers (ctx : Context) (r : Request) (s : Store) (form : Registration) : Prop where
  method : r.method = .post
  path : r.path = Http.pathOf ["users".toList]
  body : r.decodeBody Registration.decoder = .ok form
  storable : (Call.register form).Storable
  connected : ctx.connected = true
  timely : ctx.now.isRepresentable = true
  isNew : ∀ u ∈ s.users, u.id ≠ ctx.freshId 0

namespace Registers

variable {form : Registration} {u : User}

theorem asked (registers : Registers ctx r s form) :
    server.asked? ctx.now r = some (.register form) := by
  have users : ∀ cs ∈ ["users".toList], Http.IsSegment cs := by
    unfold Http.IsSegment
    decide
  refine asked?_eq_some_iff.mpr ⟨.users, .add, ?_, ?_, ?_⟩
  · rw [registers.path, Http.ofPath?_pathOf users]
    rfl
  · rw [registers.method]
    rfl
  · simp only [Http.Resource.callFor?, registers.body]
    rfl

theorem refused (registers : Registers ctx r s form)
    (made : form.toUser (ctx.freshId 0) ctx.now = .ok u)
    (taken : ∃ v ∈ s.users, v.walletAddress = u.walletAddress ∨ v.username = u.username) :
    (server.handle ctx r s).1.status = 409 := by
  have fits := Registration.toUser_fits made registers.storable
  have ended : (Call.register form).perform ctx s = (.error .alreadyRegistered, s) :=
    Action.bind_of_error (Account.register_of_taken registers.connected made fits taken)
  rw [(handle_of_asked registers.asked).2, perform, ended]
  rfl

theorem accepted (registers : Registers ctx r s form)
    (made : form.toUser (ctx.freshId 0) ctx.now = .ok u)
    (free : ¬∃ v ∈ s.users, v.walletAddress = u.walletAddress ∨ v.username = u.username) :
    (server.handle ctx r s).1.status = 201 ∧
      (server.handle ctx r s).1.body = some (UserView.ofUser u).toJson ∧
        (server.handle ctx r s).2 = { s with users := s.users ++ [u] } := by
  obtain ⟨isId, created, updated⟩ := Registration.toUser_ok made
  have fits := Registration.toUser_fits made registers.storable
  have timely : u.isReadable = true := by
    rw [User.isReadable, created, updated, registers.timely]
    rfl
  have isNew : ∀ v ∈ s.users, v.id ≠ u.id := by
    rw [isId]
    exact registers.isNew
  have ended : (Call.register form).perform ctx s =
      (.ok (.created (UserView.ofUser u).toJson), { s with users := s.users ++ [u] }) :=
    Action.bind_of_ok (Account.register_of_new registers.connected made fits timely isNew free)
  have notHead : r.method ≠ .head := by
    rw [registers.method]
    decide
  rw [(handle_of_asked registers.asked).1, (handle_of_asked registers.asked).2,
    body_of_asked_of_not_head notHead registers.asked, perform, ended]
  exact ⟨rfl, rfl, rfl⟩

end Registers

/-- An account was opened for a wallet.  The answer shows it with the kept form of the wallet, and from
then on, whatever else is asked of the service, the operator gets a token for it by every way of writing
the wallet. -/
structure AccountOpened (server : Server) (ctx : Context) (r : Request) (s : Store) (wallet : String)
    (role : Role) (u : User) : Prop where
  stored : u ∈ (server.handle ctx r s).2.users
  shown : (server.handle ctx r s).1.body = some (UserView.ofUser u).toJson
  isWallet : u.walletAddress = normalWallet wallet
  sameWallet : normalWallet u.walletAddress = normalWallet wallet
  isRole : u.role = role
  issued : ∀ future : List (Context × Request),
    (∀ step ∈ future, step.1.now.isRepresentable = true) →
      ∀ env now service, Maintenance.Usable env now service →
        ∀ v rest, normalWallet v = normalWallet wallet →
          (Maintenance.run ("issue-token" :: v :: rest) env now
            (some (server.run future (server.handle ctx r s).2))).1.Hands service
              ⟨u.id, u.walletAddress, Named.name u.role⟩

end Server

theorem Maintenance.run_issueToken {env : Environment} {settings : Settings}
    (usable : Settings.ofEnvironment env = .ok settings) (v : String) (rest : List String)
    (now : Timestamp) (tables : Option Store) :
    (Maintenance.run ("issue-token" :: v :: rest) env now tables).1 =
      Maintenance.issueToken settings now v tables := by
  rw [run, if_neg (by decide), if_pos rfl]
  simp only [usable]

namespace Server

variable {server : Server}

theorem Registers.opened {form : Registration} {wallet username : String} {role : Role}
    (registers : Registers ctx r s form) (names : form.Names wallet username role)
    (sound : s.Sound) (readable : s.Readable)
    (created : (server.handle ctx r s).1.status = 201) :
    ∃ u, server.AccountOpened ctx r s wallet role u := by
  obtain ⟨u, made, isWallet, isUsername, isRole⟩ := names.makes (ctx.freshId 0) ctx.now
  have free : ¬∃ v ∈ s.users, v.walletAddress = u.walletAddress ∨ v.username = u.username := by
    intro taken
    rw [registers.refused made taken] at created
    cases created
  obtain ⟨_, shown, after⟩ := registers.accepted made free
  have stored : u ∈ (server.handle ctx r s).2.users := by
    rw [after]
    exact List.mem_append_right _ List.mem_cons_self
  refine ⟨u, stored, shown, isWallet, ?_, isRole, ?_⟩
  · rw [isWallet, Account.normalWallet_normalWallet]
  · rintro future timely env now service ⟨⟨settings, isSettings, isService⟩, expiry⟩ v rest same
    have has : (server.handle ctx r s).2.HasAccount u.id u.walletAddress u.role :=
      ⟨u, stored, rfl, rfl, rfl⟩
    obtain ⟨soundLater, hasLater⟩ :=
      server.run_hasAccount future (server.handle_sound ctx r sound) has
    have readableLater :=
      server.run_readable future (server.handle_readable r readable registers.timely) timely
    rw [Maintenance.run_issueToken isSettings]
    exact Maintenance.issueToken_hands isService expiry soundLater readableLater hasLater
      (same.trans isWallet.symm)

/-- A wallet is one account, however it is written.  In every store to which the service comes, the
wallets have the form in which wallets are kept, and no two accounts have wallets of the same form.  A
registration is refused if its wallet or its name is taken, and opens an account otherwise.  For a
wallet that nobody has the operator gets nothing. -/
theorem wallet_is_one_account (server : Server) (s : Store) (reached : server.Reaches s) :
    s.NormalWallets ∧
    (∀ u ∈ s.users, ∀ v ∈ s.users,
      normalWallet u.walletAddress = normalWallet v.walletAddress → u = v) ∧
    (∀ ctx r form wallet username role, Registers ctx r s form →
      form.Names wallet username role →
        ((∃ u ∈ s.users, u.walletAddress = normalWallet wallet ∨ u.username = Text.trim username) →
          (server.handle ctx r s).1.status = 409) ∧
        ((¬∃ u ∈ s.users, u.walletAddress = normalWallet wallet ∨ u.username = Text.trim username) →
          (server.handle ctx r s).1.status = 201) ∧
        ((server.handle ctx r s).1.status = 201 →
          ∃ u, server.AccountOpened ctx r s wallet role u)) ∧
    (∀ v rest env now, (∀ u ∈ s.users, u.walletAddress ≠ normalWallet v) →
      (Maintenance.run ("issue-token" :: v :: rest) env now (some s)).1.Fails) := by
  have normal := reached.normalWallets
  refine ⟨normal, ?_, ?_, ?_⟩
  · intro u hu v hv same
    rw [normal u hu, normal v hv] at same
    exact reached.sound.keyed.wallet.eq_of_same hu hv same
  · intro ctx r form wallet username role registers names
    obtain ⟨u, made, isWallet, isUsername, _⟩ := names.makes (ctx.freshId 0) ctx.now
    rw [← isWallet, ← isUsername]
    exact ⟨registers.refused made, fun free => (registers.accepted made free).1,
      registers.opened names reached.sound reached.readable⟩
  · intro v rest env now unknown
    cases settings : Settings.ofEnvironment env with
    | error fault =>
        rw [Maintenance.run, if_neg (by decide), if_pos rfl]
        simp only [settings]
        exact ⟨by simp [Maintenance.settingsReport, Report.failureWithCause, Report.failure], rfl⟩
    | ok settings' =>
        rw [Maintenance.run_issueToken settings]
        exact Maintenance.issueToken_fails unknown

def newcomer : Request where
  method := .post
  target := "/api/users"
  headers := [("content-type", "application/json")]
  body := Text.Utf8.ofString
    "\x7b\"walletAddress\":\" 0xAB \",\"username\":\"ann\",\"role\":\"CLIENT\"\x7d"

def newcomerForm : Registration := ⟨some " 0xAB ", some "ann", some "CLIENT", none, none, none⟩

def siteEnvironment : Environment :=
  [("DATABASE_URL", "postgres://localhost/gigs"), ("JWT_SECRET", "secret")]

def siteTokens : Token.Service := ⟨"secret", "marketplace", "marketplace-clients", 3600⟩

theorem newcomer_read :
    (Registration.decoder.leading newcomer.body).toOption = some newcomerForm := by
  decide +kernel

theorem newcomer_names : newcomerForm.Names " 0xAB " "ann" .client :=
  ⟨rfl, by decide +kernel, rfl, by decide +kernel, "CLIENT", rfl, rfl⟩

theorem newcomer_registers : Registers firstMoment newcomer .empty newcomerForm where
  method := rfl
  path := by decide +kernel
  body := decodeBody_of_leading (by decide +kernel) (by decide +kernel) newcomer_read
  storable := by
    have wallet : normalWallet " 0xAB " = "0xab" := by decide +kernel
    have username : Text.trim "ann" = "ann" := by decide +kernel
    have short : "0xab".length ≤ 64 ∧ "ann".length ≤ 100 := by decide +kernel
    simpa [Call.Storable, Call.texts, newcomerForm, wallet, username, Text.Fits, Text.NoNul] using short
  connected := rfl
  timely := rfl
  isNew := fun _ hu => nomatch hu

theorem siteEnvironment_usable : Maintenance.Usable siteEnvironment ⟨0⟩ siteTokens where
  settings := ⟨_, rfl, rfl⟩
  expiry who := by
    rw [Token.Service.claims, if_pos (by decide +kernel)]
    exact ⟨_, rfl⟩

theorem wallet_is_one_account_site :
    plain.Reaches .empty ∧ Registers firstMoment newcomer .empty newcomerForm ∧
      newcomerForm.Names " 0xAB " "ann" .client ∧
      (plain.handle firstMoment newcomer .empty).1.status = 201 ∧
      ∃ u, plain.AccountOpened firstMoment newcomer .empty " 0xAB " .client u ∧
        (Maintenance.run ["issue-token", "0XaB\n"] siteEnvironment ⟨0⟩
          (some (plain.handle firstMoment newcomer .empty).2)).1.Hands siteTokens
            ⟨u.id, u.walletAddress, Named.name u.role⟩ := by
  have reached : plain.Reaches .empty := ⟨[], (fun _ absent => nomatch absent), rfl⟩
  obtain ⟨_, _, registrations, _⟩ := wallet_is_one_account plain .empty reached
  obtain ⟨_, created, opens⟩ := registrations firstMoment newcomer newcomerForm " 0xAB " "ann" .client
    newcomer_registers newcomer_names
  have answered := created fun ⟨_, absent, _⟩ => nomatch absent
  obtain ⟨u, opened⟩ := opens answered
  have issued := opened.issued [] (fun _ absent => nomatch absent) siteEnvironment ⟨0⟩ siteTokens
    siteEnvironment_usable "0XaB\n" [] (by decide +kernel)
  exact ⟨reached, newcomer_registers, newcomer_names, answered, u, opened, issued⟩

end Server

end GigBoard
