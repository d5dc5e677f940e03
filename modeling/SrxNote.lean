import SrxNote.Misc.Octets
import SrxNote.Misc.Loop
import SrxNote.Misc.Countdown
import SrxNote.Misc.Counting
import SrxNote.Misc.Buffer
import SrxNote.Misc.Heap
import SrxNote.Misc.Alloc
import SrxNote.Misc.Chain
import SrxNote.Misc.Run
import SrxNote.Misc.Scan
import SrxNote.Misc.Text
import SrxNote.Misc.Strtol
import SrxNote.Misc.Statements
import SrxNote.Misc.Der
import SrxNote.Misc.Tlv
import SrxNote.Misc.WordTree
import SrxNote.Misc.LinkedTree
import SrxNote.Misc.PrefixTree
import SrxNote.Bgpsec.Attr
import SrxNote.Bgpsec.Wire
import SrxNote.Quagga.Stream
import SrxNote.Quagga.Parse
import SrxNote.Quagga.Reading
import SrxNote.Quagga.Construct
import SrxNote.Quagga.Proofs.SigLoop
import SrxNote.Quagga.Proofs.ParseSteps
import SrxNote.Quagga.Proofs.ParseTermination
import SrxNote.Quagga.Proofs.ReadingWire
import SrxNote.Quagga.Proofs.ParseGrammar
import SrxNote.Quagga.Proofs.RoundTrip
import SrxNote.Quagga.Proofs.SigBlocks
import SrxNote.Quagga.AsPath
import SrxNote.Quagga.Proofs.AsPath
import SrxNote.Crypto.Api
import SrxNote.Crypto.Verify
import SrxNote.Crypto.KeyData
import SrxNote.Crypto.VerifySignature
import SrxNote.Crypto.Proofs.VerifyPlan
import SrxNote.Crypto.Proofs.KeySelection
import SrxNote.Crypto.Proofs.VerifyConsistent
import SrxNote.Crypto.Proofs.VerifyBounds
import SrxNote.Crypto.Proofs.VerifySound
import SrxNote.Crypto.Proofs.Acceptance
import SrxNote.Crypto.Binding
import SrxNote.Crypto.Proofs.Binding
import SrxNote.Crypto.Lifecycle
import SrxNote.Crypto.Proofs.Lifecycle
import SrxNote.Crypto.Proofs.KeyFormat
import SrxNote.Crypto.Proofs.KeyNames
import SrxNote.Crypto.LoadKey
import SrxNote.Crypto.Proofs.LoadKey
import SrxNote.KeyStore.Store
import SrxNote.KeyStore.Proofs.Steps
import SrxNote.KeyStore.Proofs.Slots
import SrxNote.KeyStore.Proofs.Resolve
import SrxNote.KeyStore.Proofs.Find
import SrxNote.KeyStore.Proofs.Unregister
import SrxNote.KeyStore.Proofs.Registration
import SrxNote.KeyStore.Signing
import SrxNote.KeyStore.Proofs.SelfCheck
import SrxNote.KeyStore.Proofs.KeyOwnership
import SrxNote.Intern.Nodes
import SrxNote.Intern.Copy
import SrxNote.Intern.Table
import SrxNote.Intern.Rib
import SrxNote.Intern.Proofs.Compare
import SrxNote.Intern.Proofs.Contract
import SrxNote.Intern.Proofs.Release
import SrxNote.Intern.Proofs.Copies
import SrxNote.Intern.Proofs.DupValues
import SrxNote.Intern.Proofs.TableSteps
import SrxNote.Intern.Proofs.RefCount
import SrxNote.Intern.Proofs.RibPaths
import SrxNote.Srx.Config
import SrxNote.Srx.InfoHash
import SrxNote.Srx.Router
import SrxNote.Srx.Network
import SrxNote.Srx.Sign
import SrxNote.Srx.Proofs.Items
import SrxNote.Srx.Proofs.RouterSteps
import SrxNote.Srx.Proofs.Synch
import SrxNote.Srx.Proofs.Identifiers
import SrxNote.Srx.Proofs.LiveTables
import SrxNote.Srx.Proofs.NetworkSteps
import SrxNote.Srx.Proofs.StoredResults
import SrxNote.Srx.Proofs.DeletedUpdates
import SrxNote.Srx.Proofs.Verdict
import SrxNote.Srx.Proofs.SignedPrefix
import SrxNote.Srx.Proofs.RouterInv
import SrxNote.Srx.AttrParse
import SrxNote.Srx.Proofs.ValidatedPrefix
import SrxNote.Srx.AttrBuffers
import SrxNote.Srx.Proofs.AttrBuffers
import SrxNote.Srx.Peer
import SrxNote.Srx.UpdatePacket
import SrxNote.Srx.BestPath
import SrxNote.Srx.MessageSize
import SrxNote.Srx.Commands
import SrxNote.Srx.RunningConfig
import SrxNote.Srx.Selection
import SrxNote.Srx.PathData
import SrxNote.Srx.Ecommunity
import SrxNote.Srx.Display
import SrxNote.Srx.Capability
import SrxNote.Srx.Proofs.Flags
import SrxNote.Srx.Proofs.Announced
import SrxNote.Srx.Proofs.BestPath
import SrxNote.Srx.Proofs.CombinedVerdict
import SrxNote.Srx.Proofs.InputBuffer
import SrxNote.Srx.Proofs.RunningConfig
import SrxNote.Srx.Proofs.Settings
import SrxNote.Srx.Proofs.ConfigLines
import SrxNote.Srx.Proofs.Restore
import SrxNote.Srx.Proofs.Selection
import SrxNote.Srx.Proofs.PathData
import SrxNote.Srx.Proofs.Ecommunity
import SrxNote.Srx.Proofs.LocalPref
import SrxNote.Srx.Proofs.Capability
import SrxNote.Emulator.GeneratePrefix
import SrxNote.Emulator.NetEmulator
import SrxNote.Emulator.Proofs.Files
import SrxNote.Emulator.Proofs.Network
import SrxNote.Emulator.PrefixLoops
import SrxNote.Emulator.Proofs.PrefixLoops
import SrxNote.Emulator.Proofs.PrefixOrder
import SrxNote.Emulator.Proofs.PrefixRuns
import SrxNote.Emulator.Proofs.Addresses
import SrxNote.Programs.Trie
import SrxNote.Programs.Proofs.Trie
import SrxNote.Programs.ArrayTest
import SrxNote.Programs.Proofs.ArrayTest
import SrxNote.Programs.AsRelationship
import SrxNote.Programs.Proofs.AsRelationship
import SrxNote.Patricia.Prefix
import SrxNote.Patricia.Tree
import SrxNote.Patricia.Walk
import SrxNote.Patricia.Client
import SrxNote.Patricia.Text
import SrxNote.Patricia.Demo
import SrxNote.Patricia.Proofs.Bits
import SrxNote.Patricia.Proofs.Table
import SrxNote.Patricia.Proofs.Rewire
import SrxNote.Patricia.Proofs.Search
import SrxNote.Patricia.Proofs.Attach
import SrxNote.Patricia.Proofs.Descent
import SrxNote.Patricia.Proofs.Lookup
import SrxNote.Patricia.Proofs.Remove
import SrxNote.Patricia.Proofs.Ownership
import SrxNote.Patricia.Proofs.Walk
import SrxNote.Patricia.Proofs.Clear
import SrxNote.Patricia.Proofs.Accounts
import SrxNote.Patricia.Proofs.Runs
import SrxNote.Patricia.Proofs.Text
import SrxNote.Patricia.Proofs.Demo
