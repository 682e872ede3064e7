/-
# Sessions

The tokens with which requests are authorised.  The server may hand out new tokens at any time;
a refresh token is kept until another one takes its place.
-/
import PackageStaging.Timestamp

namespace PackageStaging

/-- Tokens that the server hands out. -/
structure Tokens where
  /-- The token for requests. -/
  accessToken : String
  /-- The token with which new tokens are asked for. -/
  refreshToken : Option String
  /-- The kind of token, normally `bearer`. -/
  tokenType : Option String
deriving DecidableEq, Repr

/-- An open session. -/
structure Session where
  /-- The name with which it was opened. -/
  user : String
  /-- The token for requests. -/
  accessToken : String
  /-- The token with which new tokens are asked for. -/
  refreshToken : Option String
  /-- When the access token was handed out. -/
  issuedAt : Timestamp
deriving DecidableEq, Repr

namespace Session

/-- The session that new tokens open. -/
def ofTokens (user : String) (t : Tokens) (now : Timestamp) : Session :=
  ⟨user, t.accessToken, t.refreshToken, now⟩

/-- The session of a bare access token. -/
def ofAccessToken (token : String) (now : Timestamp) : Session := ⟨"", token, none, now⟩

/-- The session with new tokens; the old refresh token stays if there is no new one. -/
def renew (s : Session) (t : Tokens) (now : Timestamp) : Session :=
  { s with
    accessToken := t.accessToken
    refreshToken := t.refreshToken.or s.refreshToken
    issuedAt := now }

/-- The token with which new tokens are asked for: the refresh token, or the access token if
there is none. -/
def refreshCredential (s : Session) : String := s.refreshToken.getD s.accessToken

end Session

end PackageStaging
