import SimMaster.AccessCost
import SimMaster.AccessEnds
import SimMaster.AntiReplay
import SimMaster.AtDirectAck
import SimMaster.AtTransparency
import SimMaster.AutomationIntervals
import SimMaster.BatchConservation
import SimMaster.CommonPackets
import SimMaster.DigestSelection
import SimMaster.DigestVerified
import SimMaster.EapAkaResponse
import SimMaster.EspMtu
import SimMaster.IkeChains
import SimMaster.IkeDh
import SimMaster.IkeKeySchedule
import SimMaster.IkeRetransmit
import SimMaster.IkeTrafficSelectors
import SimMaster.ImsChecksums
import SimMaster.MediaRelayRuns
import SimMaster.MpathDelivery
import SimMaster.NativeSends
import SimMaster.NativeSmsOnce
import SimMaster.OutboundKeepalive
import SimMaster.ReassemblyIntegrity
import SimMaster.RecoveryResumed
import SimMaster.RegEventLease
import SimMaster.RegEventTimers
import SimMaster.RegisterLease
import SimMaster.RegisterRetryWaits
import SimMaster.RegisterWaitRuns
import SimMaster.RetryAfterField
import SimMaster.SdpDescription
import SimMaster.SipStream
import SimMaster.SmsAssemblyKey
import SimMaster.SmsReferences
import SimMaster.SmsReports
import SimMaster.SmsRuntimeRuns
import SimMaster.StunCodec
import SimMaster.TrunkDigest
import SimMaster.TrunkRegister
import SimMaster.UssdRuns
import SimMaster.UssdText
import SimMaster.VoiceOffer
import SimMaster.XfrmPlans
