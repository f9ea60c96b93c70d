import Phantom.Net.Ip

namespace Phantom.Net

open Phantom.Lib

inductive IpSource where
  | connectInfo
  | rightmostXForwardedFor
  | rightmostForwarded
  | xRealIp
  | cfConnectingIp
  | trueClientIp
  | flyClientIp
  | cloudFrontViewerAddress
deriving DecidableEq

structure Extensions where
  configuredIpSource : Option IpSource
  trustedPeerSubnets : Option (List IpNet)
  connectInfo : Option IpAddr

/-- The lines of each name in their order, as `get_all` gives them. -/
abbrev HeaderMap := String → List Bytes

structure Parts where
  headers : HeaderMap
  extensions : Extensions

/-- `HeaderValue::to_str`, which reads a line of visible ASCII as it stands, and how IPv6 addresses are read. -/
structure Texts where
  parseV6 : Bytes → Option (BitVec 128)
  toStr : Bytes → Option Bytes
  toStr_visible : ∀ line, line.all (fun byte => (32 ≤ byte && byte < 127) || byte = 9) → toStr line = some line
  toStr_eq : ∀ line text, toStr line = some text → text = line

def peerIp (extensions : Extensions) : Option IpAddr := extensions.connectInfo

def peerIsTrusted (extensions : Extensions) : Bool :=
  match (peerIp extensions).map IpAddr.toCanonical with
  | none => false
  | some peer => peer.isLoopback || (extensions.trustedPeerSubnets.getD []).any (·.contains peer)

section Extract

variable (texts : Texts) (headers : HeaderMap)

def headerEntries (name : String) : List Bytes :=
  ((headers name).filterMap texts.toStr).flatMap (List.splitOn 44)

def forValue (part : Bytes) : Option Bytes :=
  (splitOnce 61 part).bind (fun (key, value) =>
    if (trim key).map (fun byte => if 65 ≤ byte && byte ≤ 90 then byte + 32 else byte) = ascii "for" then some
      (trim value)
    else none)

def parseForwardedFor (stanza : Bytes) : Option IpAddr :=
  ((stanza.splitOn 59).findSome? forValue).bind (fun value =>
    let value := trimMatches (· = 34) value
    let bracketed := ((stripPrefix 91 value).bind (splitOnce 93)).map Prod.fst
    let candidate := (bracketed.or ((rsplitOnce 58 value).map Prod.fst)).getD value
    parseIp texts.parseV6 (trim candidate))

def rightmostXForwardedFor : Option IpAddr :=
  (headerEntries texts headers "x-forwarded-for").getLast?.bind fun entry => parseIp texts.parseV6 (trim entry)

def rightmostForwarded : Option IpAddr :=
  (headerEntries texts headers "forwarded").getLast?.bind (parseForwardedFor texts)

def leftmostXForwardedFor : Option IpAddr :=
  (headerEntries texts headers "x-forwarded-for").findSome? fun entry => parseIp texts.parseV6 (trim entry)

def leftmostForwarded : Option IpAddr :=
  (headerEntries texts headers "forwarded").findSome? (parseForwardedFor texts)

def singleIpHeader (name : String) : Option IpAddr :=
  ((headers name).head?.bind texts.toStr).bind fun text => parseIp texts.parseV6 (trim text)

def cloudfrontViewerAddress : Option IpAddr :=
  (((headers "cloudfront-viewer-address").head?.bind texts.toStr).bind (rsplitOnce 58)).bind
    (fun (ip, _) => parseIp texts.parseV6 (trim ip))

def secureExtract (source : IpSource) (headers : HeaderMap) (extensions : Extensions) : Option IpAddr :=
  match source with
  | .connectInfo => peerIp extensions
  | .rightmostXForwardedFor => rightmostXForwardedFor texts headers
  | .rightmostForwarded => rightmostForwarded texts headers
  | .xRealIp => singleIpHeader texts headers "x-real-ip"
  | .cfConnectingIp => singleIpHeader texts headers "cf-connecting-ip"
  | .trueClientIp => singleIpHeader texts headers "true-client-ip"
  | .flyClientIp => singleIpHeader texts headers "fly-client-ip"
  | .cloudFrontViewerAddress => cloudfrontViewerAddress texts headers

def insecureFallback (extensions : Extensions) : Option IpAddr :=
  (leftmostXForwardedFor texts headers).or <| (leftmostForwarded texts headers).or <|
    (singleIpHeader texts headers "x-real-ip").or <| (singleIpHeader texts headers "fly-client-ip").or <|
    (singleIpHeader texts headers "true-client-ip").or <| (singleIpHeader texts headers "cf-connecting-ip").or <|
    (cloudfrontViewerAddress texts headers).or (peerIp extensions)

def fromRequestParts (parts : Parts) : Except (ℕ × String) IpAddr :=
  match parts.extensions.configuredIpSource with
  | some source =>
    match (secureExtract texts source parts.headers parts.extensions).or
      (if peerIsTrusted parts.extensions then peerIp parts.extensions else none) with
    | some ip => .ok ip
    | none => .error (500, "Can't extract client IP from configured ip_source")
  | none =>
    match if peerIsTrusted parts.extensions then none else peerIp parts.extensions with
    | some peer => .ok peer
    | none =>
      match insecureFallback texts parts.headers parts.extensions with
      | some ip => .ok ip
      | none => .error (500, "Can't extract `ClientIp`, provide `axum::extract::ConnectInfo`")

end Extract

def IpSource.rightmostHeader : IpSource → Option String
  | .rightmostXForwardedFor => some "x-forwarded-for"
  | .rightmostForwarded => some "forwarded"
  | _ => none

def lastEntry (line : Bytes) : Option Bytes := (line.splitOn 44).getLast?

section Rightmost

variable {texts : Texts} {source : IpSource} {name : String} {headers : HeaderMap} {line : Bytes}

theorem getLast_headerEntries (last : (headers name).getLast? = some line) (text : texts.toStr line = some line) :
    (headerEntries texts headers name).getLast? = lastEntry line := by
  obtain ⟨earlier, lines⟩ := List.getLast?_eq_some_iff.mp last
  have nonempty : line.splitOn 44 ≠ [] := List.splitOnP_ne_nil _ _
  rw [headerEntries, lines, List.filterMap_append, List.flatMap_append]
  simp only [List.filterMap_cons, text, List.filterMap_nil, List.flatMap_cons, List.flatMap_nil, List.append_nil]
  rw [List.getLast?_append_of_ne_nil _ nonempty, lastEntry]

theorem headerEntries_of_skipped {entry : Bytes} (skipped : texts.toStr line = none)
    (text : texts.toStr entry = some entry)
    (whole : entry.splitOn 44 = [entry]) : headerEntries texts (fun _ => [entry, line]) name = [entry] := by
  simp [headerEntries, skipped, text, whole]

theorem secureExtract_rightmost (texts : Texts) (rightmost : source.rightmostHeader = some name) :
    ∃ read : Bytes → Option IpAddr, (∀ headers extensions, secureExtract texts source headers extensions =
      (headerEntries texts headers name).getLast?.bind read) ∧
      ∃ one two, (texts.toStr one = some one ∧ one.splitOn 44 = [one] ∧ read one = some (.v4 0x01010101)) ∧
        (texts.toStr two = some two ∧ two.splitOn 44 = [two] ∧ read two = some (.v4 0x02020202)) := by
  cases source with
  | rightmostXForwardedFor =>
    cases rightmost
    refine ⟨fun entry => parseIp texts.parseV6 (trim entry), fun _ _ => rfl, ascii "1.1.1.1", ascii "2.2.2.2", ?_, ?_⟩ <;>
      exact ⟨texts.toStr_visible _ (by decide), by decide, rfl⟩
  | rightmostForwarded =>
    cases rightmost
    refine ⟨parseForwardedFor texts, fun _ _ => rfl, ascii "for=1.1.1.1", ascii "for=2.2.2.2", ?_, ?_⟩ <;>
      exact ⟨texts.toStr_visible _ (by decide), by decide, rfl⟩
  | _ => cases rightmost

variable {extensions : Extensions}

theorem fromRequestParts_of_decoded {parts : Parts} {read : Bytes → Option IpAddr}
    (configured : extensions.configuredIpSource = some source) (own : parts.extensions = extensions)
    (extract : ∀ headers extensions, secureExtract texts source headers extensions =
    (headerEntries texts headers name).getLast?.bind read)
    (last : (parts.headers name).getLast? = some line) (text : texts.toStr line = some line) :
    fromRequestParts texts parts = (match ((lastEntry line).bind read).or
      (if peerIsTrusted extensions then peerIp extensions else none) with
      | some ip => .ok ip
      | none => .error (500, "Can't extract client IP from configured ip_source")) := by
  rw [fromRequestParts, own, configured]
  simp only [extract, getLast_headerEntries last text]

theorem not_fixed_of_skipped (rightmost : source.rightmostHeader = some name)
    (configured : extensions.configuredIpSource = some source) (skipped : texts.toStr line = none)
    (answer : Except (ℕ × String) IpAddr) :
    ¬ ∀ parts : Parts, parts.extensions = extensions → (parts.headers name).getLast? = some line →
    fromRequestParts texts parts = answer := by
  intro fixed
  obtain ⟨read, extract, one, two, ⟨oneText, oneWhole, readOne⟩, twoText, twoWhole, readTwo⟩ :=
    secureExtract_rightmost texts rightmost
  have first := fixed ⟨fun _ => [one, line], extensions⟩ rfl rfl
  have second := fixed ⟨fun _ => [two, line], extensions⟩ rfl rfl
  rw [fromRequestParts, configured] at first second
  simp only [extract, headerEntries_of_skipped skipped oneText oneWhole, List.getLast?_singleton, Option.bind_some,
    readOne,
    Option.some_or] at first
  simp only [extract, headerEntries_of_skipped skipped twoText twoWhole, List.getLast?_singleton, Option.bind_some,
    readTwo,
    Option.some_or] at second
  cases first.trans second.symm

theorem toStr_eq_self (decoded : (texts.toStr line).isSome) : texts.toStr line = some line := by
  obtain ⟨text, read⟩ := Option.isSome_iff_exists.mp decoded
  rw [read, texts.toStr_eq line text read]

/-- Requests of one peer with the same last entry have the same client, whatever stands before, exactly when their last
    lines are texts. -/
theorem client_ip_fixed_iff (texts : Texts) (source : IpSource) (name : String)
    (rightmost : source.rightmostHeader = some name) (extensions : Extensions)
    (configured : extensions.configuredIpSource = some source) (line other : Bytes)
    (same : lastEntry line = lastEntry other) :
    (∀ parts later : Parts, parts.extensions = extensions → later.extensions = extensions →
      (parts.headers name).getLast? = some line → (later.headers name).getLast? = some other →
      fromRequestParts texts parts = fromRequestParts texts later) ↔ (texts.toStr line).isSome ∧
        (texts.toStr other).isSome := by
  obtain ⟨read, extract, _⟩ := secureExtract_rightmost texts rightmost
  constructor
  · intro fixed
    constructor
    · by_contra hidden
      refine not_fixed_of_skipped rightmost configured (by simpa using hidden) (fromRequestParts texts
        ⟨fun _ => [other], extensions⟩) fun parts own last => fixed parts _ own rfl last rfl
    · by_contra hidden
      refine not_fixed_of_skipped rightmost configured (by simpa using hidden) (fromRequestParts texts
        ⟨fun _ => [line], extensions⟩) fun parts own last => (fixed _ parts rfl own rfl last).symm
  · rintro ⟨text, otherText⟩ parts later own laterOwn last laterLast
    rw [fromRequestParts_of_decoded configured own extract last (toStr_eq_self text),
      fromRequestParts_of_decoded configured laterOwn extract laterLast (toStr_eq_self otherText), same]

end Rightmost

namespace Sample

def visible (line : Bytes) : Bool := line.all fun byte => (32 ≤ byte && byte < 127) || byte = 9

def texts : Texts where
  parseV6 _ := none
  toStr line := if visible line then some line else none
  toStr_visible _ shown := if_pos shown
  toStr_eq _ _ read := (Option.some.inj (Option.ite_none_right_eq_some.mp read).2).symm

def behindProxy (first second : String) : Parts :=
  ⟨fun name => if name = "x-forwarded-for" then [ascii first, ascii second ++ ascii ", 9.9.9.9"] else [],
    ⟨some .rightmostXForwardedFor, none, some (.v4 0x7F000001)⟩⟩

end Sample

theorem client_ip_fixed_behind_proxy : fromRequestParts Sample.texts (Sample.behindProxy "6.6.6.6" "5.5.5.5") =
    fromRequestParts Sample.texts (Sample.behindProxy "7.7.7.7" "a, b") := by
  have fixed := (client_ip_fixed_iff Sample.texts .rightmostXForwardedFor "x-forwarded-for" rfl
    (Sample.behindProxy "6.6.6.6" "5.5.5.5").extensions rfl (ascii "5.5.5.5, 9.9.9.9") (ascii "a, b, 9.9.9.9")
    (by decide)).mpr (by decide)
  exact fixed _ _ rfl rfl (by decide) (by decide)

/-- A client that sends a byte beyond ASCII has its proxy's line passed over, and its own line before it is read. -/
theorem client_chooses_behind_proxy : ((Sample.behindProxy "6.6.6.6" "é").headers "x-forwarded-for").getLast? =
      ((Sample.behindProxy "7.7.7.7" "é").headers "x-forwarded-for").getLast? ∧
    (Sample.behindProxy "6.6.6.6" "é").extensions = (Sample.behindProxy "7.7.7.7" "é").extensions ∧
    fromRequestParts Sample.texts (Sample.behindProxy "6.6.6.6" "é") = .ok (.v4 0x06060606) ∧
    fromRequestParts Sample.texts (Sample.behindProxy "7.7.7.7" "é") = .ok (.v4 0x07070707) :=
  ⟨by decide, rfl, by decide, by decide⟩

end Phantom.Net
