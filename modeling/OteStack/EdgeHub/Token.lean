/-
# OteStack.EdgeHub.Token — the tokens with which an edge hub registers at a k3s server.

`pkg/server/certificate/certificate.go`.  A token is `K10`, the hash of the certificates of the server, `::`,
a user name, `:` and a password; a raw password is made into one without a hash.  `ParseAndValidateToken` asks
the server for its certificates, compares the hash and tries the credentials, and the token is then written
anew with the hash of the certificates that the server has presented.

A user name has no colon, and neither has a hash, so a token is read back as it was written even if the
password has colons (`parseToken_toToken`).  A normalised token carries the password it was made from, and
normalising it once more changes nothing (`tokens_round_trip`).

Parsing and printing a URL, and the answers of the server, are parameters; so is the hash, of which only the
digits matter.
-/
import Mathlib.Data.List.DropRight
import OteStack.Lib.GoStrings

namespace OteStack.Certificate

open OteStack.Lib.GoStrings (hasPrefix splitN2 splitN2_append)

/-! ## The server -/

/-- Bytes, such as those of a bundle of certificates. -/
abbrev Bytes := List UInt8

/-- The parts of a `url.URL` that are read or written. -/
structure Url where
  scheme : String
  host : String
  path : String
  deriving DecidableEq, Repr

/-- `url.Parse` and `URL.String`. -/
structure UrlFormat where
  parse : String → Except String Url
  string : Url → String

/-- The clients with which requests are sent: the default one, the one that does not verify certificates, and
those that trust a bundle. -/
inductive Client where
  | default
  | insecure
  | trusting (cacerts : Bytes)
  deriving DecidableEq, Repr

/-- An answer of a server. -/
structure Response where
  statusCode : ℕ
  status : String
  body : Except String Bytes

/-- What requests are answered, for a URL, a client and the credentials, if there are any. -/
abbrev Net := String → Client → Option (String × String) → Except String Response

/-- `hashCA`: a text of hexadecimal digits for every bundle. -/
structure HashCA where
  hash : Bytes → String
  hex : ∀ cacerts, ∀ c ∈ (hash cacerts).toList, c ∈ "0123456789abcdef".toList

/-- Go's `get`. -/
def get (net : Net) (u : String) (client : Client) (username password : String) : Except String Bytes :=
  match net u client (if username ≠ "" then some (username, password) else none) with
  | .error err => .error err
  | .ok resp => if resp.statusCode ≠ 200 then .error (u ++ ": " ++ resp.status) else resp.body

/-- Go's `GetHTTPClient`. -/
def getHTTPClient (cacerts : Bytes) : Client := if cacerts.length = 0 then .default else .trusting cacerts

/-- Go's `GetCACerts`: none if the default client trusts the server. -/
def getCACerts (url : UrlFormat) (net : Net) (u : Url) : Except String Bytes :=
  let url := url.string { u with path := "/cacerts" }
  match get net url .default "" "" with
  | .ok _ => .ok []
  | .error _ =>
      match get net url .insecure "" "" with
      | .error err => .error ("failed to get CA certs at " ++ url ++ ": " ++ err)
      | .ok cacerts =>
          match get net url (getHTTPClient cacerts) "" "" with
          | .error err => .error ("server " ++ url ++ " is not trusted: " ++ err)
          | .ok _ => .ok cacerts

/-- Go's `validateToken`. -/
def validateToken (url : UrlFormat) (net : Net) (u : Url) (cacerts : Bytes) (username password : String) :
    Except String Unit :=
  match get net (url.string { u with path := "/apis" }) (getHTTPClient cacerts) username password with
  | .error err => .error ("token is not valid: " ++ err)
  | .ok _ => .ok ()

/-- Go's `validateCACerts`. -/
def validateCACerts (h : HashCA) (cacerts : Bytes) (hash : String) : Bool × String × String :=
  if cacerts.length = 0 ∧ hash = "" then (true, "", "")
  else (hash == h.hash cacerts, hash, h.hash cacerts)

/-! ## Tokens -/

/-- Go's `clientToken`. -/
structure ClientToken where
  caHash : String
  username : String
  password : String
  deriving DecidableEq, Repr

/-- Go's `Info`. -/
structure Info where
  url : String
  caCerts : Bytes
  username : String
  password : String
  token : String
  deriving DecidableEq, Repr

/-- Go's `parseToken`. -/
def parseToken (token : String) : Except String ClientToken :=
  if !hasPrefix token "K10" then .error "token is not a valid token format"
  else
    let token := String.ofList (token.toList.drop 3)
    let (caHash, token) :=
      match splitN2 token "::" with
      | [hash, rest] => (hash, rest)
      | _ => ("", token)
    match splitN2 token ":" with
    | [username, password] => .ok ⟨caHash, username, password⟩
    | _ => .error "token credentials are the wrong format"

/-- Go's `ToToken`. -/
def Info.toToken (h : HashCA) (i : Info) : String :=
  "K10" ++ h.hash i.caCerts ++ "::" ++ i.username ++ ":" ++ i.password

/-- The URL of the server in `ParseAndValidateToken`. -/
def serverUrl (url : UrlFormat) (server : String) : Except String Url :=
  match url.parse server with
  | .error err => .error ("Invalid url, failed to parse " ++ server ++ ": " ++ err)
  | .ok u =>
      if u.scheme ≠ "https" then
        .error ("only https:// URLs are supported, invalid scheme: " ++ server)
      else .ok { u with path := String.ofList (u.path.toList.rdropWhile (· = '/')) }

variable (h : HashCA) (url : UrlFormat) (net : Net)

/-- Go's `ParseAndValidateToken`. -/
def parseAndValidateToken (server token : String) : Except String Info :=
  match serverUrl url server with
  | .error err => .error err
  | .ok u =>
      match parseToken token with
      | .error err => .error err
      | .ok parsedToken =>
          match getCACerts url net u with
          | .error err => .error err
          | .ok cacerts =>
              let (ok, hash, newHash) :=
                if 0 < cacerts.length ∧ 0 < parsedToken.caHash.length then
                  validateCACerts h cacerts parsedToken.caHash
                else (true, "", "")
              if !ok then .error ("token does not match the server " ++ hash ++ " != " ++ newHash)
              else
                match validateToken url net u cacerts parsedToken.username parsedToken.password with
                | .error err => .error err
                | .ok _ =>
                    let i : Info := ⟨url.string u, cacerts, parsedToken.username, parsedToken.password, token⟩
                    .ok { i with token := i.toToken h }

/-- The token that `NormalizeAndValidateTokenForUser` has validated: a raw one becomes the password of the
user. -/
def tokenForUser (token user : String) : String :=
  if !hasPrefix token "K10" then "K10::" ++ user ++ ":" ++ token else token

/-- Go's `NormalizeAndValidateTokenForUser`. -/
def normalizeAndValidateTokenForUser (server token user : String) : Except String String :=
  match parseAndValidateToken h url net server (tokenForUser token user) with
  | .error err => .error err
  | .ok info =>
      let info := if info.username ≠ user then { info with username := user } else info
      .ok (info.toToken h)

/-! ## Tokens are read back -/

/-- A token with a hash that has no colon. -/
theorem parseToken_format {hash user : String} (hhash : ':' ∉ hash.toList) (huser : ':' ∉ user.toList)
    (password : String) :
    parseToken ("K10" ++ hash ++ "::" ++ user ++ ":" ++ password) = .ok ⟨hash, user, password⟩ := by
  have hstart : hasPrefix ("K10" ++ hash ++ "::" ++ user ++ ":" ++ password) "K10" = true := by
    simp [hasPrefix]
  have hrest : String.ofList (("K10" ++ hash ++ "::" ++ user ++ ":" ++ password).toList.drop 3) =
      hash ++ "::" ++ (user ++ ":" ++ password) := by
    refine String.toList_inj.mp ?_
    simp
  rw [parseToken, hstart]
  simp only [Bool.not_true, Bool.false_eq_true, if_false, hrest,
    splitN2_append (show "::".toList = [':', ':'] by decide) hhash,
    splitN2_append (show ":".toList = [':'] by decide) huser]

theorem HashCA.colon_notMem (cacerts : Bytes) : ':' ∉ (h.hash cacerts).toList := fun hmem =>
  absurd (h.hex cacerts ':' hmem) (by decide)

/-- A token that was written is read back. -/
theorem parseToken_toToken {i : Info} (huser : ':' ∉ i.username.toList) :
    parseToken (i.toToken h) = .ok ⟨h.hash i.caCerts, i.username, i.password⟩ :=
  parseToken_format (h.colon_notMem i.caCerts) huser i.password

/-- A raw token is the password of a token without a hash. -/
theorem parseToken_tokenForUser {token user : String} (huser : ':' ∉ user.toList)
    (hraw : hasPrefix token "K10" = false) :
    parseToken (tokenForUser token user) = .ok ⟨"", user, token⟩ := by
  have hempty : ':' ∉ "".toList := by decide
  rw [tokenForUser, hraw]
  exact parseToken_format hempty huser token

/-! ## Normalised tokens -/

/-- The hash of a token does not contradict the certificates. -/
def Matches (cacerts : Bytes) (hash : String) : Prop :=
  0 < cacerts.length → 0 < hash.length → hash = h.hash cacerts

variable {h url net}

/-- What `ParseAndValidateToken` needs, and what it returns. -/
theorem parseAndValidateToken_eq_ok {server token : String} {u : Url} {t : ClientToken} {cacerts : Bytes}
    (hurl : serverUrl url server = .ok u) (htoken : parseToken token = .ok t)
    (hcerts : getCACerts url net u = .ok cacerts) (hhash : Matches h cacerts t.caHash)
    (hvalid : validateToken url net u cacerts t.username t.password = .ok ()) :
    ∃ info, parseAndValidateToken h url net server token = .ok info ∧ info.caCerts = cacerts ∧
      info.username = t.username ∧ info.password = t.password := by
  simp only [parseAndValidateToken, hurl, htoken, hcerts]
  by_cases hboth : 0 < cacerts.length ∧ 0 < t.caHash.length
  · have hne : ¬(cacerts.length = 0 ∧ t.caHash = "") := fun hc => Nat.ne_of_gt hboth.1 hc.1
    have heq : (t.caHash == h.hash cacerts) = true := beq_iff_eq.mpr (hhash hboth.1 hboth.2)
    simp only [if_pos hboth, validateCACerts, if_neg hne, heq, Bool.not_true, Bool.false_eq_true, if_false,
      hvalid]
    exact ⟨_, rfl, rfl, rfl, rfl⟩
  · simp only [if_neg hboth, Bool.not_true, Bool.false_eq_true, if_false, hvalid]
    exact ⟨_, rfl, rfl, rfl, rfl⟩

theorem of_parseAndValidateToken {server token : String} {info : Info}
    (hok : parseAndValidateToken h url net server token = .ok info) :
    ∃ u t, serverUrl url server = .ok u ∧ parseToken token = .ok t ∧
      getCACerts url net u = .ok info.caCerts ∧ info.password = t.password := by
  unfold parseAndValidateToken at hok
  cases hurl : serverUrl url server with
  | error err =>
      rw [hurl] at hok
      cases hok
  | ok u =>
      cases htoken : parseToken token with
      | error err =>
          rw [hurl, htoken] at hok
          cases hok
      | ok t =>
          cases hcerts : getCACerts url net u with
          | error err =>
              simp only [hurl, htoken, hcerts] at hok
              cases hok
          | ok cacerts =>
              simp only [hurl, htoken, hcerts] at hok
              -- how the hash compares does not matter any more
              generalize (if 0 < cacerts.length ∧ 0 < t.caHash.length then validateCACerts h cacerts t.caHash
                else (true, "", "")) = check at hok
              split at hok
              · cases hok
              · split at hok
                · cases hok
                · cases hok
                  exact ⟨u, t, rfl, rfl, hcerts, rfl⟩

/-- The user name of the token is replaced. -/
theorem normalizeAndValidateTokenForUser_eq_ok {server token user : String} {info : Info}
    (hinfo : parseAndValidateToken h url net server (tokenForUser token user) = .ok info) :
    normalizeAndValidateTokenForUser h url net server token user =
      .ok ("K10" ++ h.hash info.caCerts ++ "::" ++ user ++ ":" ++ info.password) := by
  simp only [normalizeAndValidateTokenForUser, hinfo]
  by_cases huser : info.username = user
  · rw [if_neg (not_not.mpr huser), Info.toToken, huser]
  · rw [if_pos huser, Info.toToken]

/-- Tokens round-trip.  A token is read back as it was written, and a raw token as the password of its user.
A normalised token carries the hash of the certificates, the user and the password that the raw one was, and
normalising it for the same user at a server that presents these certificates and accepts the credentials
returns it. -/
theorem tokens_round_trip (h : HashCA) (url : UrlFormat) :
    (∀ i : Info, ':' ∉ i.username.toList →
        parseToken (i.toToken h) = .ok ⟨h.hash i.caCerts, i.username, i.password⟩) ∧
      ∀ user token : String, ':' ∉ user.toList → hasPrefix token "K10" = false →
        parseToken (tokenForUser token user) = .ok ⟨"", user, token⟩ ∧
          ∀ net server normalised,
            normalizeAndValidateTokenForUser h url net server token user = .ok normalised →
            ∃ u cacerts, serverUrl url server = .ok u ∧ getCACerts url net u = .ok cacerts ∧
              parseToken normalised = .ok ⟨h.hash cacerts, user, token⟩ ∧
              ∀ net' server' u', serverUrl url server' = .ok u' → getCACerts url net' u' = .ok cacerts →
                validateToken url net' u' cacerts user token = .ok () →
                  normalizeAndValidateTokenForUser h url net' server' normalised user = .ok normalised := by
  refine ⟨fun i huser => parseToken_toToken h huser, fun user token huser hraw => ?_⟩
  have hparsed := parseToken_tokenForUser huser hraw
  refine ⟨hparsed, fun net server normalised hok => ?_⟩
  cases hinfo : parseAndValidateToken h url net server (tokenForUser token user) with
  | error err =>
      rw [normalizeAndValidateTokenForUser, hinfo] at hok
      cases hok
  | ok info =>
      obtain ⟨u, t, hurl, htoken, hcerts, hpassword⟩ := of_parseAndValidateToken hinfo
      obtain rfl := Except.ok.inj (hparsed.symm.trans htoken)
      rw [normalizeAndValidateTokenForUser_eq_ok hinfo, hpassword] at hok
      obtain rfl := Except.ok.inj hok
      have hread := parseToken_format (h.colon_notMem info.caCerts) huser token
      refine ⟨u, info.caCerts, hurl, hcerts, hread, fun net' server' u' hurl' hcerts' hvalid => ?_⟩
      -- the normalised token starts with `K10` and is validated as it is
      have hsame : tokenForUser ("K10" ++ h.hash info.caCerts ++ "::" ++ user ++ ":" ++ token) user =
          "K10" ++ h.hash info.caCerts ++ "::" ++ user ++ ":" ++ token := by
        simp [tokenForUser, hasPrefix]
      rw [← hsame] at hread
      have hhash : Matches h info.caCerts (h.hash info.caCerts) := fun _ _ => rfl
      obtain ⟨info', hinfo', hcaCerts, -, hpassword'⟩ :=
        parseAndValidateToken_eq_ok hurl' hread hcerts' hhash hvalid
      rw [normalizeAndValidateTokenForUser_eq_ok hinfo', hcaCerts, hpassword']

/-- A password with colons, at a server that everybody trusts. -/
theorem tokens_round_trip_colons :
    let h : HashCA := ⟨fun _ => "e3", fun _ c hc => by
      rcases (by simpa using hc : c = 'e' ∨ c = '3') with rfl | rfl <;> decide⟩
    let url : UrlFormat := ⟨fun server => .ok ⟨"https", server, "/"⟩, fun u => u.host ++ u.path⟩
    let net : Net := fun _ _ _ => .ok ⟨200, "200 OK", .ok []⟩
    normalizeAndValidateTokenForUser h url net "edge" "a::b:" "node" = .ok "K10e3::node:a::b:" ∧
      parseToken "K10e3::node:a::b:" = .ok ⟨"e3", "node", "a::b:"⟩ := by
  intro h url net
  exact ⟨rfl, (tokens_round_trip h url).1 ⟨"", [], "node", "a::b:", ""⟩ (by decide)⟩

end OteStack.Certificate
