import Callbridge.Protocol.Proofs.IdentityPayload
import Callbridge.Gtbs.Proofs.SamePhone
import Callbridge.Bluez.Proofs.Releasing
import Callbridge.Bluez.Proofs.PeerChoice
import Callbridge.Bluez.Proofs.IdleNow
import Callbridge.Bluez.Proofs.LtvParsing
import Callbridge.Bluez.Proofs.Selection
import Callbridge.Bluez.Proofs.DeferredQoS
import Callbridge.Bluez.Proofs.Agreement
import Callbridge.Bluez.Proofs.IdleReservation
import Callbridge.Bluez.Proofs.OwnHold
import Callbridge.Bluez.Proofs.AdvAgreement
import Callbridge.Serve.Proofs.MediaToken
import Callbridge.Serve.Proofs.CommandEffects
import Callbridge.Gtbs.Proofs.Answers
import Callbridge.Serve.Proofs.HoldTrap
import Callbridge.Serve.Proofs.DropOnce
import Callbridge.Control.Proofs.Results
import Callbridge.Control.Proofs.Converges
import Callbridge.State.Proofs.Marking
import Callbridge.Message.Proofs.TextSurvives
import Callbridge.Message.Proofs.MmsTree
import Callbridge.MapClient.Proofs.Fragmentation
import Callbridge.MapClient.Proofs.Collecting
import Callbridge.MapClient.Proofs.Panics
import Callbridge.MapClient.Proofs.FolderCache
import Callbridge.Mns.Proofs.Operations
import Callbridge.Bridge.Proofs.Sources
import Callbridge.Bridge.Proofs.Destinations
import Callbridge.Bridge.Proofs.NoInjection
import Callbridge.Bridge.Proofs.Wake
import Callbridge.Bridge.Proofs.InStep
