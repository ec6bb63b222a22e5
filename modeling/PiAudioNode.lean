import PiAudioNode.Lib.Run
import PiAudioNode.Lib.Tournament
import PiAudioNode.Ptp.Selection
import PiAudioNode.Ptp.MonitorOnly
import PiAudioNode.Ptp.FalseLock
import PiAudioNode.Ptp.Pairing
import PiAudioNode.Ptp.Selected
import PiAudioNode.Ptp.Interleaving
import PiAudioNode.Ptp.Mapping
import PiAudioNode.Ptp.Isolation
import PiAudioNode.Ptp.Status
import PiAudioNode.Ptp.NetMatch
import PiAudioNode.Ptp.Heard
import PiAudioNode.Ptp.Tracking
import PiAudioNode.Rtp.Receiver
import PiAudioNode.Rtp.Accounting
import PiAudioNode.Rtp.Capacity
import PiAudioNode.Rtp.Merge
import PiAudioNode.Rtp.Relock
import PiAudioNode.Rtp.Drift
import PiAudioNode.Rtp.Anchor
import PiAudioNode.Rtp.Handover
import PiAudioNode.Rtp.Leftover
import PiAudioNode.Rtp.Restart
import PiAudioNode.Rtp.Advertised
import PiAudioNode.Rtp.FailedStart
import PiAudioNode.Rtp.SdpWhole
import PiAudioNode.Rtp.MediaClock
import PiAudioNode.Rtp.AnchorWait
import PiAudioNode.Rtp.LegLoss
import PiAudioNode.Rtp.Bounds
import PiAudioNode.Rtp.Codec
import PiAudioNode.Rtp.Payload
import PiAudioNode.Rtp.SdpFit
import PiAudioNode.Rtp.SdpLabel
import PiAudioNode.Nmos.Registration
import PiAudioNode.Nmos.Notifications
import PiAudioNode.Nmos.Untouched
import PiAudioNode.Nmos.SenderActive
import PiAudioNode.Nmos.ReceiverActive
import PiAudioNode.Nmos.ParameterLegs
import PiAudioNode.Nmos.Atomic
import PiAudioNode.Nmos.Subscription
import PiAudioNode.Nmos.Commands
import PiAudioNode.Nmos.Batch
import PiAudioNode.Nmos.TxtStrings
import PiAudioNode.Web.Push
import PiAudioNode.Web.Update
import PiAudioNode.Web.Browse
import PiAudioNode.Web.Address
import PiAudioNode.Nmos.Announced
import PiAudioNode.Nmos.ReportingDelay
import PiAudioNode.Nmos.Overall
import PiAudioNode.StatusFeed
import PiAudioNode.Durability
import PiAudioNode.Merge
import PiAudioNode.Recovery
import PiAudioNode.StartUp
import PiAudioNode.Audio.Memory
import PiAudioNode.Audio.AlsaOut
import PiAudioNode.Rtp.Lateness
import PiAudioNode.Rtp.EndToEnd
import PiAudioNode.Rtp.Connected
import PiAudioNode.Rtp.Synchrony
import PiAudioNode.Nmos.Discovery
import PiAudioNode.Nmos.Uuid
import PiAudioNode.Nmos.Failover
import PiAudioNode.Nmos.Tallies
import PiAudioNode.Web.Playback
