import MiniRtc.Lib.Bytes
import MiniRtc.Lib.Text

/-! The session descriptions of an ICE transport as texts (ice_transport.cpp, ice_agent.cpp,
ice_utils.h, rtx_ssrc_mapping.h, rtp_extension_negotiation.cpp): how they are written, and how the
attributes of a section are read back. What libnice writes is a parameter. -/
namespace MiniRtc.Sdp
open Text

/-- The difference of two `size_t`. -/
def sizeSub (a b : Nat) : Nat := if b ≤ a then a - b else 2 ^ 64 - (b - a)

/-- A line that ends with a carriage return. -/
def cr (s : Text) : Text := s ++ ['\r']

namespace PayloadType

def undefined : Int := 0
def h264 : Int := 96
def av1 : Int := 99
def opus : Int := 111
def data : Int := 120
def rtx : Int := 127

end PayloadType

/-! ### Attributes of the ICE agent -/

def kRelayUpgradeAttribute : Text := "a=x-minirtc-relay-upgrade:1".toList
def kP2pEnhancementAttribute : Text := "a=x-minirtc-p2p-enhancement:1".toList
def kSrtpKeyLayoutAttribute : Text := "a=x-minirtc-srtp-key-layout:rfc5764".toList
def kAudioDataSrtpAttribute : Text := "a=x-minirtc-audio-data-srtp:1".toList
def kUdpPunchAttribute : Text := "a=x-minirtc-udp-punch:1".toList
def kUdpPunchRetryAttribute : Text := "a=x-minirtc-udp-punch-retry:1".toList
def kUdpPunchFingerprintAttribute : Text := "a=x-minirtc-udp-punch-fingerprint:".toList
def kFecSdpAttribute : Text := "a=x-minirtc-fec:rs-v1 122".toList

/-- What `GenerateLocalSdp` reads: the section that libnice writes for the stream "video", which
extensions the agent has, and the fingerprint of its certificate. -/
structure IceAgent where
  streamSdp : Text
  relayUpgrade : Bool
  stunServers : Bool
  udpPunch : Bool
  digest : Wire.Bytes

def hexDigit (n : Nat) : Char := "0123456789ABCDEF".toList.getD n '0'

def hexOctet (b : Wire.Byte) : Text := [hexDigit (b.toNat / 16), hexDigit (b.toNat % 16)]

/-- `ComputeFingerprint` of a digest. -/
def computeFingerprint : Wire.Bytes → Text
  | [] => []
  | [b] => hexOctet b
  | b :: rest => hexOctet b ++ ':' :: computeFingerprint rest

def IceAgent.dtlsFingerprint (agent : IceAgent) : Text := computeFingerprint agent.digest

/-- The audio and the data section are the video section with another name. -/
def IceAgent.generateLocalSdp (agent : IceAgent) : Text :=
  agent.streamSdp ++ replaceAll "video".toList "audio".toList agent.streamSdp ++
    replaceAll "video".toList "data".toList agent.streamSdp ++
    (if agent.relayUpgrade then
      unlines [cr kRelayUpgradeAttribute] ++
        if agent.stunServers then unlines [cr kP2pEnhancementAttribute] else []
    else []) ++
    if agent.udpPunch then
      unlines [cr kUdpPunchAttribute, cr kUdpPunchRetryAttribute,
        cr (kUdpPunchFingerprintAttribute ++ "sha-256 ".toList ++ agent.dtlsFingerprint)]
    else []

def IceAgent.appendFingerprintLine (agent : IceAgent) (sdp : Text) : Text :=
  sdp ++ unlines [cr kSrtpKeyLayoutAttribute, cr ("a=fingerprint:sha-256 ".toList ++ agent.dtlsFingerprint)]

/-! ### Sections -/

def getMediaSection (sdp tag : Text) : Text :=
  match find ("m=".toList ++ tag) sdp with
  | none => []
  | some start =>
    match findFrom "\nm=".toList sdp (start + 1) with
    | none => sdp.drop start
    | some stop => substr sdp start (stop - start)

def getSessionSection (sdp : Text) : Text :=
  match find "m=".toList sdp with
  | none => sdp
  | some start => sdp.take start

/-- The end of libnice's media line gives way to the capability. -/
def replaceCapability (sdp : Text) (start : Nat) (capability : Text) : Text :=
  let mediaLineEnd := (findFrom "\n".toList sdp start).getD sdp.length
  match findFrom "ICE/SDP".toList sdp start with
  | none => sdp
  | some pos =>
    if pos < mediaLineEnd then sdp.take pos ++ capability ++ sdp.drop (pos + "ICE/SDP".toList.length)
    else sdp

def configureMediaSection (sdp tag capability attributes : Text) : Text :=
  match find ("m=".toList ++ tag) sdp with
  | none => sdp
  | some start =>
    let sdp := replaceCapability sdp start capability
    let insertPos :=
      match findFrom "\nm=".toList sdp (start + 1) with
      | none => sdp.length
      | some next => next + 1
    sdp.take insertPos ++ attributes ++ sdp.drop insertPos

/-! ### Attributes of the streams -/

def buildRtxSsrcAttributes (id : Text) (media rtx : Uint32) : Text :=
  let attributes := unlines ["a=ssrc:".toList ++ ofNat media ++ " name:".toList ++ id]
  if media = 0 ∨ rtx = 0 ∨ media = rtx then attributes
  else
    attributes ++ unlines ["a=ssrc-group:FID ".toList ++ ofNat media ++ " ".toList ++ ofNat rtx,
      "a=ssrc:".toList ++ ofNat rtx ++ " cname:".toList ++ id]

structure RtxSsrcPair where
  media : Uint32
  rtx : Uint32
deriving DecidableEq

def parseRtxSsrcGroup (line : Text) : Option RtxSsrcPair := do
  guard ("a=ssrc-group:".toList.isPrefixOf line)
  let (semantics, rest) ← word (line.drop "a=ssrc-group:".toList.length)
  let (media, rest) ← number rest
  let (rtx, _) ← number rest
  guard (semantics = "FID".toList ∧ media ≠ 0 ∧ rtx ≠ 0 ∧ media ≠ rtx)
  return { media, rtx }

/-! ### Absolute send time -/

def kAbsoluteSendTimeUri : Text := "http://www.webrtc.org/experiments/rtp-hdrext/abs-send-time".toList

def kPreferredAbsoluteSendTimeExtensionId : BitVec 8 := 3

def isValidOneByteExtensionId (id : Nat) : Bool := 1 ≤ id ∧ id ≤ 14

inductive RtpExtensionDirection where
  | sendRecv
  | sendOnly
  | recvOnly
  | inactive
deriving DecidableEq

structure AbsoluteSendTimeExtensionIds where
  sendId : Option (BitVec 8) := none
  recvId : Option (BitVec 8) := none
  valid : Bool := true
deriving DecidableEq

def parseDirection (direction : Text) : Option RtpExtensionDirection :=
  if direction = "sendrecv".toList then some .sendRecv
  else if direction = "sendonly".toList then some .sendOnly
  else if direction = "recvonly".toList then some .recvOnly
  else if direction = "inactive".toList then some .inactive
  else none

structure ExtmapState where
  extensions : List (BitVec 8) := []
  result : AbsoluteSendTimeExtensionIds := {}
  seen : Bool := false
deriving DecidableEq

/-- The id of an extension and its direction, where the token before the URI has one. -/
def extensionToken (token : Text) (otherwise : RtpExtensionDirection) :
    Text × Option RtpExtensionDirection :=
  match find "/".toList token with
  | some slash => (token.take slash, parseDirection (token.drop (slash + 1)))
  | none => (token, some otherwise)

def takeIds (id : BitVec 8) (result : AbsoluteSendTimeExtensionIds) :
    RtpExtensionDirection → AbsoluteSendTimeExtensionIds
  | .sendRecv => { result with sendId := id, recvId := id }
  | .sendOnly => { result with recvId := id }
  | .recvOnly => { result with sendId := id }
  | .inactive => result

/-- A turn of the loop over the lines; `none` where the ids are invalid. -/
def extmapLine (otherwise : RtpExtensionDirection) (s : ExtmapState) (line : Text) : Option ExtmapState :=
  let extmap := "a=extmap:".toList
  let line := trim line
  if extmap.isPrefixOf line = false then some s
  else
    match findFrom " ".toList line extmap.length with
    | none => some s
    | some separator =>
      let (token, direction) := extensionToken (substr line extmap.length (separator - extmap.length)) otherwise
      let uri := (trim (line.drop (separator + 1))).takeWhile fun c => c ≠ ' ' ∧ c ≠ '\t'
      match parseUint32 token with
      | none => some s
      | some parsed =>
        if isValidOneByteExtensionId parsed = false then some s
        else
          let id := BitVec.ofNat 8 parsed
          if id ∈ s.extensions then none
          else if uri ≠ kAbsoluteSendTimeUri then some { s with extensions := id :: s.extensions }
          else if s.seen then none
          else
            direction.map fun direction =>
              { extensions := id :: s.extensions, seen := true, result := takeIds id s.result direction }

def parseRemoteAbsoluteSendTimeExtension (sdpSection : Text) (otherwise : RtpExtensionDirection) :
    AbsoluteSendTimeExtensionIds :=
  match (lines sdpSection).foldlM (extmapLine otherwise) {} with
  | some s => s.result
  | none => { valid := false }

def buildLocalAbsoluteSendTimeExtmap (ids : AbsoluteSendTimeExtensionIds) : Text :=
  if ids.valid = false then []
  else
    match ids.sendId.or ids.recvId with
    | none => []
    | some id =>
      if isValidOneByteExtensionId id.toNat = false then []
      else if ids.sendId.isSome ∧ ids.recvId.isSome ∧ ids.sendId ≠ ids.recvId then []
      else
        let direction :=
          if ids.recvId.isNone then "/sendonly".toList
          else if ids.sendId.isNone then "/recvonly".toList
          else []
        unlines ["a=extmap:".toList ++ ofNat id.toNat ++ direction ++ " ".toList ++ kAbsoluteSendTimeUri]

def hasExtmap (sdpSection : Text) : Bool :=
  (lines sdpSection).any fun line => "a=extmap:".toList.isPrefixOf (trim line)

/-- The first line that names a direction. -/
def getMediaDirection (sdpSection : Text) : RtpExtensionDirection :=
  ((lines sdpSection).findSome? fun line =>
    let line := trim line
    if line = "a=sendonly".toList then some .sendOnly
    else if line = "a=recvonly".toList then some .recvOnly
    else if line = "a=inactive".toList then some .inactive
    else none).getD .sendRecv

def getAbsoluteSendTimeExtensionIds (sdp tag : Text) : AbsoluteSendTimeExtensionIds :=
  let media := getMediaSection sdp tag
  let session := getSessionSection sdp
  if hasExtmap media && hasExtmap session then { valid := false }
  else if hasExtmap media then parseRemoteAbsoluteSendTimeExtension media (getMediaDirection media)
  else parseRemoteAbsoluteSendTimeExtension session .sendRecv

/-! ### Video transport -/

structure VideoTransportCapabilities where
  rtx : Bool := false
  nack : Bool := false
  fir : Bool := false
  reducedSizeRtcp : Bool := false
deriving DecidableEq

structure VideoLines where
  payloadOnMediaLine : Bool := false
  hasRtxMapping : Bool := false
  hasMatchingApt : Bool := false
  hasNackFeedback : Bool := false
  fir : Bool := false
  reducedSizeRtcp : Bool := false
deriving DecidableEq

/-- Whether a parameter of a format names the payload it retransmits. -/
def matchesApt (payload parameter : Text) : Bool :=
  let parameter := trim parameter
  match find "=".toList parameter with
  | none => false
  | some separator =>
    trim (parameter.take separator) = "apt".toList && trim (parameter.drop (separator + 1)) = payload

def videoLine (payload : Text) (s : VideoLines) (line : Text) : VideoLines :=
  let rtx := ofInt PayloadType.rtx
  let rtpmap := "a=rtpmap:".toList ++ rtx ++ " ".toList
  let fmtp := "a=fmtp:".toList ++ rtx ++ " ".toList
  let line := trim line
  { payloadOnMediaLine := s.payloadOnMediaLine ||
      ("m=video ".toList.isPrefixOf line && (fields line).any fun field => field = rtx)
    hasRtxMapping :=
      if rtpmap.isPrefixOf line then (trim (line.drop rtpmap.length)).map Char.toLower = "rtx/90000".toList
      else s.hasRtxMapping
    hasMatchingApt := s.hasMatchingApt ||
      (fmtp.isPrefixOf line && (pieces ';' (line.drop fmtp.length)).any (matchesApt payload))
    hasNackFeedback := s.hasNackFeedback ||
      line = "a=rtcp-fb:".toList ++ payload ++ " nack".toList || line = "a=rtcp-fb:* nack".toList
    fir := s.fir || line = "a=rtcp-fb:".toList ++ payload ++ " ccm fir".toList ||
      line = "a=rtcp-fb:* ccm fir".toList
    reducedSizeRtcp := s.reducedSizeRtcp || line = "a=rtcp-rsize".toList }

def parseVideoTransportCapabilities (videoSection : Text) (mediaPayloadType : Int) :
    VideoTransportCapabilities :=
  let s := (lines videoSection).foldl (videoLine (ofInt mediaPayloadType)) {}
  let rtx := s.payloadOnMediaLine && s.hasRtxMapping && s.hasMatchingApt
  { rtx, nack := rtx && s.hasNackFeedback, fir := s.fir, reducedSizeRtcp := s.reducedSizeRtcp }

def buildVideoTransportAttributes (payload : Text) (offers : VideoTransportCapabilities) : Text :=
  let rtx := ofInt PayloadType.rtx
  (if offers.rtx then
    unlines ["a=rtpmap:".toList ++ rtx ++ " rtx/90000".toList,
      "a=fmtp:".toList ++ rtx ++ " apt=".toList ++ payload]
  else []) ++
    (if offers.nack then unlines ["a=rtcp-fb:".toList ++ payload ++ " nack".toList] else []) ++
    (if offers.fir then unlines ["a=rtcp-fb:".toList ++ payload ++ " ccm fir".toList] else []) ++
    if offers.reducedSizeRtcp then unlines ["a=rtcp-rsize".toList] else []

/-! ### Forward error correction -/

def supportsRsFec (sdpSection : Text) : Bool :=
  let ls := (lines sdpSection).map chomp
  ls.any (· = kFecSdpAttribute) &&
    ls.any fun line => "m=video ".toList.isPrefixOf line &&
      ((fields line).drop 3).any fun field => field = "122".toList

def supportsOpusFec (sdpSection : Text) : Bool :=
  let blank (c : Char) : Bool := c = ' ' || c = '\t' || c = '\r'
  (lines sdpSection).any fun line => "a=fmtp:111 ".toList.isPrefixOf line &&
    (pieces ';' (line.drop "a=fmtp:111 ".toList.length)).any fun parameter =>
      (parameter.dropWhile blank).rdropWhile blank = "useinbandfec=1".toList

/-! ### Fingerprints and protection -/

structure IceFingerprintSdp where
  sdp : Text := []
  fingerprint : Text := []
  punchFingerprint : Text := []

def isHexDigit (c : Char) : Bool := c.isDigit || ('a' ≤ c && c ≤ 'f') || ('A' ≤ c && c ≤ 'F')

/-- The value of a fingerprint in capitals, from a position on. -/
def fingerprintFrom : Nat → Text → Option Text
  | _, [] => some []
  | i, c :: rest =>
    if i % 3 = 2 then if c = ':' then (fingerprintFrom (i + 1) rest).map (c :: ·) else none
    else if isHexDigit c then (fingerprintFrom (i + 1) rest).map (c.toUpper :: ·)
    else none

def fingerprintValue (value : Text) : Option Text :=
  if value.length = 95 then fingerprintFrom 0 value else none

/-- A turn of the loop over the lines. -/
def fingerprintLine (s : IceFingerprintSdp) (line : Text) : Option IceFingerprintSdp :=
  let line := chomp line
  let punch := kUdpPunchFingerprintAttribute.isPrefixOf line
  if punch = false ∧ "a=fingerprint:".toList.isPrefixOf line = false then
    some { s with sdp := s.sdp ++ line ++ ['\n'] }
  else
    let start := (if punch then kUdpPunchFingerprintAttribute else "a=fingerprint:".toList) ++ "sha-256 ".toList
    if start.isPrefixOf line = false then none
    else
      (fingerprintValue (line.drop start.length)).bind fun value =>
        let known := if punch then s.punchFingerprint else s.fingerprint
        if known ≠ [] ∧ known ≠ value then none
        else if punch then some { s with punchFingerprint := value }
        else some { s with fingerprint := value }

def splitIceFingerprint (sdp : Text) : Option IceFingerprintSdp :=
  ((lines sdp).foldlM fingerprintLine {}).bind fun s =>
    if s.fingerprint ≠ [] ∧ s.punchFingerprint ≠ [] ∧ s.fingerprint ≠ s.punchFingerprint then none else some s

/-- A turn of the loop over the lines; `none` where the capability is invalid. -/
def srtpCapabilityLine (found : Bool) (line : Text) : Option Bool :=
  let line := chomp line
  if line = "a=x-minirtc-audio-data-srtp".toList ∨ "a=x-minirtc-audio-data-srtp:".toList.isPrefixOf line then
    if found ∨ line ≠ kAudioDataSrtpAttribute then none else some true
  else some found

def parseAudioDataSrtpCapability (sdp : Text) : Option Bool := (lines sdp).foldlM srtpCapabilityLine false

/-! ### Payload types -/

/-- The payload types of a media line: what follows its third space. -/
def remoteCapabilities (sdp tag : Text) : Text :=
  let media := "m=".toList ++ tag
  let start := match find media sdp with
    | some start => start + media.length
    | none => media.length - 1
  let pos1 := findFrom " ".toList sdp start
  let pos2 := pos1.bind fun pos => findFrom " ".toList sdp (pos + 1)
  let pos3 := pos2.bind fun pos => findFrom " ".toList sdp (pos + 1)
  match findFrom "\n".toList sdp start, pos3 with
  | some stop, some pos => substr sdp (pos + 1) (sizeSub stop (pos + 1))
  | _, _ => []

/-- The loop over the payload types, as long as `fuel` lasts. What is looked at is always the text
from the first one on. -/
def choosePayloadType (capabilities : Text) (supported : List Int) (otherwise : Int) : Nat → Nat → Int
  | 0, _ => otherwise
  | fuel + 1, start =>
    if capabilities.length < start then otherwise
    else
      let stop := findFrom " ".toList capabilities start
      let prefered := atoi (match stop with
        | some stop => capabilities.take stop
        | none => capabilities)
      if prefered ∈ supported then prefered
      else
        match stop with
        | some stop => choosePayloadType capabilities supported otherwise fuel (stop + 1)
        | none => otherwise

/-- `Negotiate..PayloadType` of a kind of media. -/
def negotiatePayloadType (sdp tag : Text) (supported : List Int) (otherwise : Int) : Int :=
  let capabilities := remoteCapabilities sdp tag
  choosePayloadType capabilities supported otherwise (capabilities.length + 1) 0

end MiniRtc.Sdp
