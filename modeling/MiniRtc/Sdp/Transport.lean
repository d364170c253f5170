import MiniRtc.Lib.SortedMap
import MiniRtc.Sdp.Sections

/-! What an ICE transport does with the descriptions (ice_transport.cpp): it announces its streams
and capabilities in the offer or the answer, and reads those of the other side.
The channels that are added to the controller, and the check of a description against the address
of a direct network, are left out. -/
namespace MiniRtc.Sdp
open Text

/-- The numbers that the controller gives to the streams, and what it is told about the other side. -/
structure IceTransportController where
  videoSsrc : Text → Uint32
  videoRtxSsrc : Text → Uint32
  audioSsrc : Text → Uint32
  dataSsrc : Text → Uint32
  srtpEnabled : Bool := false
  audioDataSrtpEnabled : Bool := false
  videoFec : Bool := false
  opusFec : Bool := false
  /-- The flag that `Create` gets. -/
  videoRtx : Option Bool := none

structure IceTransport where
  offerPeer : Bool
  directPolicy : Bool
  enableSrtp : Bool
  preferedVideoPayloadType : Int
  supportVideoPayloadTypes : List Int
  supportAudioPayloadTypes : List Int
  supportDataPayloadTypes : List Int := [PayloadType.data]
  videoStreamIds : List Text
  audioStreamIds : List Text
  dataStreamIds : SortedMap Text Bool
  controller : IceTransportController
  audioDataSrtpEnabled : Bool := false
  videoSendersSsrc : SortedMap Text Uint32 := .empty
  audioSendersSsrc : SortedMap Text Uint32 := .empty
  dataSendersSsrc : SortedMap Text Uint32 := .empty
  remoteVideoStreamIds : List Text := []
  remoteAudioStreamIds : List Text := []
  remoteDataStreamIds : List Text := []
  videoReceiversSsrc : SortedMap Text Uint32 := .empty
  videoReceiversRtxSsrc : SortedMap Text Uint32 := .empty
  audioReceiversSsrc : SortedMap Text Uint32 := .empty
  dataReceiversSsrc : SortedMap Text Uint32 := .empty
  remoteDataStreamReliable : SortedMap Text Bool := .empty
  remoteSdp : Text := []
  remoteCapabilitiesGot : Bool := false
  negotiatedVideoPt : Int := PayloadType.undefined
  negotiatedAudioPt : Int := PayloadType.undefined
  negotiatedDataPt : Int := PayloadType.undefined
  videoAbsSendTimeExtId : Option (BitVec 8) := none
  videoAbsRecvTimeExtId : Option (BitVec 8) := none
  audioAbsSendTimeExtId : Option (BitVec 8) := none
  audioAbsRecvTimeExtId : Option (BitVec 8) := none

namespace IceTransport

/-! ### Writing -/

structure SenderAttributes where
  video : Text
  audio : Text
  data : Text

def ssrcLine (ssrc : Uint32) (id : Text) : Text := "a=ssrc:".toList ++ ofNat ssrc ++ " name:".toList ++ id

def reliableLine (ssrc : Uint32) (reliable : Bool) : Text :=
  "a=x-reliable-data:".toList ++ ofNat ssrc ++ " ".toList ++ if reliable then ['1'] else ['0']

/-- The attributes of the senders. -/
def senderAttributes (t : IceTransport) (includeVideoRtx : Bool) : SenderAttributes where
  video := t.videoStreamIds.flatMap fun id =>
    if includeVideoRtx then
      buildRtxSsrcAttributes id (t.controller.videoSsrc id) (t.controller.videoRtxSsrc id)
    else unlines [ssrcLine (t.controller.videoSsrc id) id]
  audio := t.audioStreamIds.flatMap fun id => unlines [ssrcLine (t.controller.audioSsrc id) id]
  data := t.dataStreamIds.entries.flatMap fun (id, reliable) =>
    unlines [ssrcLine (t.controller.dataSsrc id) id, reliableLine (t.controller.dataSsrc id) reliable]

def appendLocalSenderSsrcAttributes (t : IceTransport) (includeVideoRtx : Bool) (attributes : SenderAttributes) :
    SenderAttributes × IceTransport :=
  let senders := t.senderAttributes includeVideoRtx
  ({ video := attributes.video ++ senders.video
     audio := attributes.audio ++ senders.audio
     data := attributes.data ++ senders.data },
    { t with
      videoSendersSsrc := t.videoSendersSsrc.assignAll (t.videoStreamIds.map fun id => (id, t.controller.videoSsrc id))
      audioSendersSsrc := t.audioSendersSsrc.assignAll (t.audioStreamIds.map fun id => (id, t.controller.audioSsrc id))
      dataSendersSsrc := t.dataSendersSsrc.assignAll
        (t.dataStreamIds.entries.map fun e => (e.1, t.controller.dataSsrc e.1)) })

/-- The three sections get their capabilities and attributes. -/
def configureMediaSections (sdp : Text) (capabilities attributes : SenderAttributes) : Text :=
  let sdp := configureMediaSection sdp "video".toList capabilities.video attributes.video
  let sdp := configureMediaSection sdp "audio".toList capabilities.audio attributes.audio
  configureMediaSection sdp "data".toList capabilities.data attributes.data

def protocol : Text := "UDP/TLS/RTP/SAVPF ".toList

/-- The lines of the forward error correction of video. -/
def fecAttributes : Text := unlines [cr kFecSdpAttribute, cr "a=rtpmap:122 x-minirtc-rs/90000".toList]

def opusAttributes : Text := unlines [cr "a=fmtp:111 useinbandfec=1".toList]

def appendLocalCapabilitiesToOffer (t : IceTransport) (sdp : Text) : Text × IceTransport :=
  let (prefered, other) :=
    if t.preferedVideoPayloadType = PayloadType.av1 then (PayloadType.av1, PayloadType.h264)
    else (PayloadType.h264, PayloadType.av1)
  let id := some kPreferredAbsoluteSendTimeExtensionId
  let extmap := buildLocalAbsoluteSendTimeExtmap { sendId := id, recvId := id }
  let (attributes, t) := t.appendLocalSenderSsrcAttributes true
    { video := extmap ++ buildVideoTransportAttributes (ofInt prefered)
        { rtx := true, nack := true, fir := true, reducedSizeRtcp := true } ++ fecAttributes
      audio := extmap ++ opusAttributes
      data := [] }
  (configureMediaSections sdp
    { video := protocol ++ ofInt prefered ++ " ".toList ++ ofInt other ++ " ".toList ++ ofInt PayloadType.rtx ++
        " 122".toList
      audio := protocol ++ "111".toList
      data := protocol ++ "120 121".toList }
    attributes,
    { t with
      videoAbsSendTimeExtId := id
      videoAbsRecvTimeExtId := id
      audioAbsSendTimeExtId := id
      audioAbsRecvTimeExtId := id })

def appendLocalCapabilitiesToAnswer (t : IceTransport) (sdp : Text) : Text × IceTransport :=
  let remote := parseVideoTransportCapabilities (getMediaSection t.remoteSdp "video".toList) t.negotiatedVideoPt
  let fecEnabled := remote.rtx && supportsRsFec (getMediaSection t.remoteSdp "video".toList)
  let payload := ofInt t.negotiatedVideoPt
  let (attributes, t) := t.appendLocalSenderSsrcAttributes remote.rtx
    { video := buildLocalAbsoluteSendTimeExtmap
          { sendId := t.videoAbsSendTimeExtId, recvId := t.videoAbsRecvTimeExtId } ++
        buildVideoTransportAttributes payload remote ++ (if fecEnabled then fecAttributes else [])
      audio := buildLocalAbsoluteSendTimeExtmap
          { sendId := t.audioAbsSendTimeExtId, recvId := t.audioAbsRecvTimeExtId } ++ opusAttributes
      data := [] }
  (configureMediaSections sdp
    { video := protocol ++ payload ++ (if remote.rtx then " ".toList ++ ofInt PayloadType.rtx else []) ++
        (if fecEnabled then " 122".toList else [])
      audio := protocol ++ ofInt t.negotiatedAudioPt
      data := protocol ++ ofInt t.negotiatedDataPt }
    attributes,
    { t with controller := { t.controller with videoRtx := some remote.rtx } })

/-- Offers advertise support; answers confirm only what both support. -/
def appendAudioDataSrtpCapability (t : IceTransport) (sdp : Text) : Text :=
  if t.enableSrtp ∧ (t.offerPeer ∨ t.audioDataSrtpEnabled) then sdp ++ unlines [cr kAudioDataSrtpAttribute]
  else sdp

/-- What `SendOffer` and `SendAnswer` put after the capabilities. -/
def protect (t : IceTransport) (agent : IceAgent) (sdp : Text) : Text :=
  t.appendAudioDataSrtpCapability (if t.enableSrtp then agent.appendFingerprintLine sdp else sdp)

def sendOffer (t : IceTransport) (agent : IceAgent) : Text × IceTransport :=
  let (sdp, t) := t.appendLocalCapabilitiesToOffer agent.generateLocalSdp
  (t.protect agent sdp, t)

def sendAnswer (t : IceTransport) (agent : IceAgent) : Text × IceTransport :=
  let (sdp, t) := t.appendLocalCapabilitiesToAnswer agent.generateLocalSdp
  (t.protect agent sdp, t)

/-! ### Reading -/

/-- `NegotiateSrtp`; `none` where it refuses. -/
def negotiateSrtp (t : IceTransport) (sdp : Text) (remoteHasFingerprint : Bool) : Option IceTransport :=
  (parseAudioDataSrtpCapability sdp).bind fun capability =>
    let enableSrtp := t.enableSrtp && remoteHasFingerprint
    let audioDataSrtp := enableSrtp && capability
    if t.directPolicy ∧ (enableSrtp = false ∨ audioDataSrtp = false) then none
    else if t.remoteCapabilitiesGot then
      if enableSrtp ≠ t.enableSrtp ∨ audioDataSrtp ≠ t.audioDataSrtpEnabled then none else some t
    else
      some { t with
        enableSrtp
        audioDataSrtpEnabled := audioDataSrtp
        controller := { t.controller with
          srtpEnabled := enableSrtp
          audioDataSrtpEnabled := audioDataSrtp } }

inductive MediaType where
  | video
  | audio
  | data
deriving DecidableEq

structure SsrcLines where
  ssrcToSenderId : SortedMap Uint32 Text := .empty
  ssrcToReliable : SortedMap Uint32 Bool := .empty
  mediaToRtxSsrc : SortedMap Uint32 Uint32 := .empty
  kept : Text := []

/-- What stands before and behind the first space after a prefix. -/
def splitAttribute (start line : Text) : Option (Text × Text) :=
  (findFrom " ".toList line start.length).map fun space =>
    (substr line start.length (space - start.length), line.drop (space + 1))

/-- A turn of the loop over the lines. -/
def ssrcAttribute (media : MediaType) (s : SsrcLines) (line : Text) : SsrcLines :=
  if "a=ssrc-group:".toList.isPrefixOf line ∧ media = .video then
    match parseRtxSsrcGroup line with
    | some pair => { s with mediaToRtxSsrc := s.mediaToRtxSsrc.assign pair.media pair.rtx }
    | none => s
  else if "a=ssrc:".toList.isPrefixOf line then
    match splitAttribute "a=ssrc:".toList line with
    | none => s
    | some (number, property) =>
      match parseUint32 number with
      | none => s
      | some ssrc =>
        if "name:".toList.isPrefixOf property then
          { s with ssrcToSenderId := s.ssrcToSenderId.assign ssrc (chomp (property.drop "name:".toList.length)) }
        else s
  else if "a=x-reliable-data:".toList.isPrefixOf line ∧ media = .data then
    match splitAttribute "a=x-reliable-data:".toList line with
    | none => s
    | some (number, value) =>
      match parseUint32 number with
      | none => s
      | some ssrc => { s with ssrcToReliable := s.ssrcToReliable.assign ssrc (trim value = ['1']) }
  else { s with kept := s.kept ++ line ++ ['\n'] }

/-- The senders of a section by their SSRC, without retransmissions. -/
def SsrcLines.senders (s : SsrcLines) (media : MediaType) : List (Text × Uint32) :=
  let rtxSsrcs := s.mediaToRtxSsrc.entries.map Prod.snd
  (s.ssrcToSenderId.entries.filter fun e =>
    !(media = .video && e.1 ∈ rtxSsrcs) && !e.2.isEmpty).map fun e => (e.2, e.1)

/-- The retransmissions of the senders. -/
def SsrcLines.retransmissions (s : SsrcLines) : List (Text × Uint32) :=
  s.mediaToRtxSsrc.entries.filterMap fun e =>
    match s.ssrcToSenderId.find e.1 with
    | some id => if id.isEmpty then none else some (id, e.2)
    | none => none

def SsrcLines.reliabilities (s : SsrcLines) : List (Text × Bool) :=
  s.ssrcToReliable.entries.filterMap fun e => (s.ssrcToSenderId.find e.1).map fun id => (id, e.2)

def parseSsrcs (block : Text) (media : MediaType) : SsrcLines :=
  (lines block).foldl (ssrcAttribute media) {}

def readVideo (t : IceTransport) (block : Text) : Text × IceTransport :=
  let s := parseSsrcs block .video
  (s.kept, { t with
    videoReceiversSsrc := SortedMap.empty.assignAll (s.senders .video)
    videoReceiversRtxSsrc := SortedMap.empty.assignAll s.retransmissions
    remoteVideoStreamIds := t.remoteVideoStreamIds ++ (s.senders .video).map Prod.fst })

def readAudio (t : IceTransport) (block : Text) : IceTransport :=
  let s := parseSsrcs block .audio
  { t with
    audioReceiversSsrc := SortedMap.empty.assignAll (s.senders .audio)
    remoteAudioStreamIds := t.remoteAudioStreamIds ++ (s.senders .audio).map Prod.fst }

def readData (t : IceTransport) (block : Text) : IceTransport :=
  let s := parseSsrcs block .data
  { t with
    dataReceiversSsrc := SortedMap.empty.assignAll (s.senders .data)
    remoteDataStreamIds := t.remoteDataStreamIds ++ (s.senders .data).map Prod.fst
    remoteDataStreamReliable := t.remoteDataStreamReliable.assignAll s.reliabilities }

/-- The part of `GetRemoteCapabilities` that cuts the description into sections and reads their
streams; it leaves the video section without them, and the candidates. -/
def readStreams (t : IceTransport) (sdp : Text) : Text × IceTransport :=
  let videoStart := find "m=video".toList sdp
  let audioStart := find "m=audio".toList sdp
  let dataStart := find "m=data".toList sdp
  let candidateStart := find "a=candidate".toList sdp
  let endOfSdp := sdp.length
  let (mediaStreamSdp, t) :=
    match videoStart with
    | none => ([], t)
    | some start =>
      let stop := min (audioStart.getD endOfSdp) (min (dataStart.getD endOfSdp) (candidateStart.getD endOfSdp))
      t.readVideo (substr sdp start (sizeSub stop start))
  let t :=
    match audioStart with
    | none => t
    | some start =>
      let stop := min (dataStart.getD endOfSdp) (candidateStart.getD endOfSdp)
      t.readAudio (substr sdp start (sizeSub stop start))
  let t :=
    match dataStart with
    | none => t
    | some start => t.readData (substr sdp start (sizeSub (candidateStart.getD endOfSdp) start))
  match candidateStart with
  | none => (mediaStreamSdp, t)
  | some start => (mediaStreamSdp ++ sdp.drop start, t)

/-- Whether an answer changed an id that was offered. -/
def remapped (sendId recvId : Option (BitVec 8)) : Bool :=
  (sendId.isSome && sendId ≠ some kPreferredAbsoluteSendTimeExtensionId) ||
    (recvId.isSome && recvId ≠ some kPreferredAbsoluteSendTimeExtensionId)

def negotiateExtensions (t : IceTransport) (sdp : Text) : IceTransport :=
  let video := getAbsoluteSendTimeExtensionIds sdp "video".toList
  let audio := getAbsoluteSendTimeExtensionIds sdp "audio".toList
  let video : AbsoluteSendTimeExtensionIds :=
    if t.offerPeer ∧ remapped video.sendId video.recvId then {} else video
  let audio : AbsoluteSendTimeExtensionIds :=
    if t.offerPeer ∧ remapped audio.sendId audio.recvId then {} else audio
  { t with
    videoAbsSendTimeExtId := video.sendId
    videoAbsRecvTimeExtId := video.recvId
    audioAbsSendTimeExtId := audio.sendId
    audioAbsRecvTimeExtId := audio.recvId }

/-- The three negotiations, each only after the one before, and whether all have succeeded. -/
def negotiatePayloadTypes (t : IceTransport) (sdp : Text) : IceTransport × Bool :=
  let t := { t with
    negotiatedVideoPt :=
      negotiatePayloadType sdp "video".toList t.supportVideoPayloadTypes t.negotiatedVideoPt }
  if t.negotiatedVideoPt = PayloadType.undefined then (t, false)
  else
    let t := { t with
      negotiatedAudioPt :=
        negotiatePayloadType sdp "audio".toList t.supportAudioPayloadTypes t.negotiatedAudioPt }
    if t.negotiatedAudioPt = PayloadType.undefined then (t, false)
    else
      let t := { t with
        negotiatedDataPt :=
          negotiatePayloadType sdp "data".toList t.supportDataPayloadTypes t.negotiatedDataPt }
      (t, t.negotiatedDataPt ≠ PayloadType.undefined)

/-- What the controller is told once the payload types are known. -/
def tellController (t : IceTransport) (sdp : Text) : IceTransport :=
  let videoSection := getMediaSection sdp "video".toList
  let rtx := (parseVideoTransportCapabilities videoSection t.negotiatedVideoPt).rtx
  { t with controller := { t.controller with
      videoFec := supportsRsFec videoSection && rtx
      opusFec := supportsOpusFec (getMediaSection sdp "audio".toList)
      videoRtx := if t.offerPeer then some rtx else t.controller.videoRtx } }

/-- The description for libnice: the fingerprints are put at its end. -/
def withFingerprints (mediaStreamSdp : Text) (fingerprints : IceFingerprintSdp) : Text :=
  mediaStreamSdp ++
    (if fingerprints.fingerprint = [] then []
    else unlines [cr ("a=fingerprint:sha-256 ".toList ++ fingerprints.fingerprint)]) ++
    if fingerprints.punchFingerprint = [] then []
    else unlines [cr (kUdpPunchFingerprintAttribute ++ "sha-256 ".toList ++ fingerprints.punchFingerprint)]

/-- `GetRemoteCapabilities`; nothing where it refuses. -/
def getRemoteCapabilities (t : IceTransport) (sdp : Text) : Text × IceTransport :=
  match splitIceFingerprint sdp with
  | none => ([], t)
  | some fingerprints =>
    match t.negotiateSrtp sdp (!fingerprints.fingerprint.isEmpty) with
    | none => ([], t)
    | some t =>
      let (mediaStreamSdp, t) := t.readStreams sdp
      match splitIceFingerprint mediaStreamSdp with
      | none => ([], t)
      | some media =>
        let mediaStreamSdp := withFingerprints media.sdp fingerprints
        if t.remoteCapabilitiesGot then (mediaStreamSdp, t)
        else
          let (t, negotiated) := (t.negotiateExtensions sdp).negotiatePayloadTypes sdp
          if negotiated then (mediaStreamSdp, { t.tellController sdp with remoteCapabilitiesGot := true })
          else ([], t)

/-- `SetRemoteSdp`, where libnice takes the description; `none` where the negotiation fails. -/
def setRemoteSdp (t : IceTransport) (sdp : Text) : Option IceTransport :=
  let (mediaStreamSdp, t) := t.getRemoteCapabilities sdp
  if mediaStreamSdp = [] then none else some { t with remoteSdp := sdp }

end IceTransport

end MiniRtc.Sdp
