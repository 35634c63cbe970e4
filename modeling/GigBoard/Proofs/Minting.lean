import GigBoard.Proofs.Lifetimes

/-!
# Tokens of one secret

Two services that share their secret accept the tokens of one another if they also have the issuer and
the audience in common.  The texts in a token come back as they were, so its bearer is known as the one
for whom it was minted.
A token is verified by a clock that counts the seconds since the beginning of 1970.
-/

set_option autoImplicit false

namespace GigBoard

namespace Token.Service

variable {a b : Settings} {minter verifier : Service} {g v : Timestamp} {who : Identity}
  {token : String} {c : Claims}

/-- Until its expiry a token is accepted where the issuer and the audience are its own. -/
theorem checkClaims_statement (since : 0 ≤ v.seconds)
    (intime : v.seconds ≤ g.seconds + minter.lifetime)
    (told : (minter.expiry g).isRepresentable = true) :
    verifier.checkClaims v (minter.statement g who) = .ok c ↔
      c = minter.statement g who ∧ minter.issuer = verifier.issuer ∧
        minter.audience = verifier.audience := by
  have seconds := minter.seconds_expiry g
  have near := Timestamp.seconds_of_isRepresentable told
  have clock := wrapped_of_natural since (by omega)
  have expiresAt := wrapped_of_natural (show 0 ≤ g.seconds + minter.lifetime by omega) (by omega)
  have unexpired : wrapped v.seconds ≤ (minter.statement g who).expiresAt + leeway := by
    simp only [statement, leeway]
    omega
  rw [checkClaims_eq_ok_iff]
  constructor
  · rintro ⟨isStatement, _, same⟩
    exact ⟨isStatement, same⟩
  · rintro ⟨isStatement, same⟩
    exact ⟨isStatement, unexpired, same⟩

/-- A token that was minted with one configuration is accepted with another one of the same secret, at
any time in its lifetime, exactly if the issuer and the audience agree.  What it says is read back as it
was signed, and a request that brings it is made by the one for whom it was minted. -/
theorem minted_tokens_verify (a b : Settings) (sameSecret : a.secret = b.secret) (who : Identity)
    (g : Timestamp) (present : g.isRepresentable = true)
    (ends : (a.expiryAt g).isRepresentable = true)
    (verifier : Service) (usable : ofSettings b = .ok verifier) :
    ∃ minter token, ofSettings a = .ok minter ∧ minter.mint g who = .ok token ∧
      ∀ v : Timestamp, 0 ≤ v.seconds → v.seconds ≤ g.seconds + 60 * a.expiryMinutes →
        ((∃ c, verifier.verify v token.toList = .ok c) ↔
          b.issuer = a.issuer ∧ b.audience = a.audience) ∧
        (∀ c, verifier.verify v token.toList = .ok c →
          c = ⟨who.userId, who.walletAddress, who.role, a.issuer, a.audience, wrapped g.seconds,
            wrapped (g.seconds + 60 * a.expiryMinutes)⟩) ∧
        ∀ (server : Server) (r : Http.Request), server.tokens = verifier →
          r.headers.first? "authorization" = some ("Bearer " ++ token) →
            server.identify v r = if b.issuer = a.issuer ∧ b.audience = a.audience then .ok who
              else .error .unauthorized := by
  obtain ⟨_, isVerifier⟩ := ofSettings_eq_ok_iff.mp usable
  have secret : verifier.secret = a.secret := by rw [isVerifier, minterOf, sameSecret]
  have issuer : verifier.issuer = b.issuer := by rw [isVerifier, minterOf]
  have audience : verifier.audience = b.audience := by rw [isVerifier, minterOf]
  have told := expiry_minterOf a g
  have minted := mint_of_representable who (told ▸ ends)
  refine ⟨minterOf a, _, ofSettings_of_representable present ends, minted, fun v since intime => ?_⟩
  have judged (c : Claims) : verifier.verify v
      (String.ofList ((minterOf a).sign ((minterOf a).statement g who))).toList = .ok c ↔
        c = (minterOf a).statement g who ∧ b.issuer = a.issuer ∧ b.audience = a.audience := by
    rw [verify_minted minted secret v, checkClaims_statement since intime (told ▸ ends), issuer,
      audience, eq_comm (a := b.issuer), eq_comm (a := b.audience)]
    rfl
  refine ⟨⟨?_, fun same => ⟨_, (judged _).mpr ⟨rfl, same⟩⟩⟩,
    fun c accepted => ((judged c).mp accepted).1, ?_⟩
  · rintro ⟨c, accepted⟩
    exact ((judged c).mp accepted).2
  · intro server r isServer field
    have sent := Http.Request.bearer?_of_sign field
    rw [String.toList_ofList] at judged
    split
    · rename_i same
      exact Server.identify_of_accepted sent (isServer ▸ (judged _).mpr ⟨rfl, same⟩)
    · rename_i apart
      apply Server.identify_of_stranger
      rintro ⟨token, claims, sent', accepted⟩
      rw [sent] at sent'
      cases sent'
      rw [isServer] at accepted
      exact apart ((judged claims).mp accepted).2

def oddBearer : Identity := ⟨.ofNat 1, "0x.\"A\\é\x00", ""⟩

/-- In the last microsecond of its hour a token is accepted by a service whose own tokens last for no
time at all. -/
theorem minted_tokens_verify_to_the_end :
    moment.isRepresentable = true ∧ ofSettings (settingsFor 0) = .ok (serviceFor 0) ∧
      ∃ minter token, ofSettings (settingsFor 60) = .ok minter ∧
        minter.mint moment oddBearer = .ok token ∧
          ∃ c, (serviceFor 0).verify ⟨1700003600999999⟩ token.toList = .ok c ∧
            c.identity = oddBearer := by
  have usable : ofSettings (settingsFor 0) = .ok (serviceFor 0) := rfl
  obtain ⟨minter, token, isMinter, minted, verifies⟩ := minted_tokens_verify (settingsFor 60)
    (settingsFor 0) rfl oddBearer moment (by decide) (by decide) (serviceFor 0) usable
  obtain ⟨accepts, reads, _⟩ := verifies ⟨1700003600999999⟩ (by decide) (by decide)
  obtain ⟨c, accepted⟩ := accepts.mpr ⟨rfl, rfl⟩
  have same : c.identity = oddBearer := by
    rw [reads c accepted]
    rfl
  exact ⟨by decide, usable, minter, token, isMinter, minted, c, accepted, same⟩

end Token.Service

end GigBoard
