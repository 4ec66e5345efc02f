import MultiCoreL2Cache.Proof.MshrRing
import MultiCoreL2Cache.Proof.RefillIntegrity
import MultiCoreL2Cache.Proof.Replies
import MultiCoreL2Cache.Proof.WriteBacks
import MultiCoreL2Cache.Proof.HandOver
import MultiCoreL2Cache.Proof.SingleWriter
import MultiCoreL2Cache.Proof.SnoopHandshake
import MultiCoreL2Cache.Proof.RefilledLine
import MultiCoreL2Cache.Proof.HiddenState
import MultiCoreL2Cache.Proof.TrueLru
import MultiCoreL2Cache.Proof.Stalls
import MultiCoreL2Cache.Proof.DoubleAllocation
import MultiCoreL2Cache.Proof.Sharers
import MultiCoreL2Cache.Proof.TagStorage
import MultiCoreL2Cache.Proof.SetIndex
import MultiCoreL2Cache.Proof.WriteHalves
import MultiCoreL2Cache.Proof.Scoreboard
import MultiCoreL2Cache.Proof.VictimLine
import MultiCoreL2Cache.Proof.Freeze
import MultiCoreL2Cache.Proof.Lookup
import MultiCoreL2Cache.Proof.Merging
import MultiCoreL2Cache.Proof.DramRequests
import MultiCoreL2Cache.Proof.SnoopAddresses
import MultiCoreL2Cache.Proof.DirectoryStore
import MultiCoreL2Cache.Proof.StrayWrites
import MultiCoreL2Cache.Proof.HeldRequest
import MultiCoreL2Cache.Proof.Independence
import MultiCoreL2Cache.Proof.WrapAround
import MultiCoreL2Cache.Proof.ResponseHandshake
import MultiCoreL2Cache.Proof.LastWriteWins
import MultiCoreL2Cache.Proof.PacketRoundTrip
import MultiCoreL2Cache.Proof.StimulusFidelity
import MultiCoreL2Cache.Proof.SettledCycles
import MultiCoreL2Cache.Proof.Deadlocks
import MultiCoreL2Cache.Proof.UnusedLines
import MultiCoreL2Cache.Model.MissLog
import MultiCoreL2Cache.Proof.Lockout
import MultiCoreL2Cache.Proof.MissLog
import MultiCoreL2Cache.Proof.Progress
import MultiCoreL2Cache.Proof.ErasedMemory
import MultiCoreL2Cache.Model.Bench
import MultiCoreL2Cache.Proof.Bench
import MultiCoreL2Cache.Proof.RelevantInputs
import MultiCoreL2Cache.Proof.SnoopTargets
import MultiCoreL2Cache.Model.Sequences
import MultiCoreL2Cache.Proof.Sequences
import MultiCoreL2Cache.Proof.TagWidth
import MultiCoreL2Cache.Proof.Parameters
import MultiCoreL2Cache.Proof.Handshakes
