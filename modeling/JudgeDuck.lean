import JudgeDuck.Solver.Model
import JudgeDuck.Lib.Positional
import JudgeDuck.Solver.Hash
import JudgeDuck.Solver.Run
import JudgeDuck.Solver.Windows
import JudgeDuck.Solver.Answers
import JudgeDuck.Contestant.Model
import JudgeDuck.Contestant.Session
import JudgeDuck.Solver.Cuts
import JudgeDuck.Contestant.Segments
import JudgeDuck.DuckCache.Model
import JudgeDuck.Lib.Chains
import JudgeDuck.DuckCache.Index
import JudgeDuck.DuckCache.Pages
import JudgeDuck.DuckCache.Evict
import JudgeDuck.DuckCache.Invariant
import JudgeDuck.DuckCache.Init
import JudgeDuck.DuckCache.Refinement
import JudgeDuck.DuckCache.Stores
import JudgeDuck.Ducknet.Base
import JudgeDuck.Lib.Slots
import JudgeDuck.Ducknet.Arp
import JudgeDuck.Ducknet.ArpTable
import JudgeDuck.Ducknet.Ipv4
import JudgeDuck.Ducknet.Tosend
import JudgeDuck.Ducknet.Outbox
import JudgeDuck.Ducknet.Receive
import JudgeDuck.Ducknet.RoundTrip
import JudgeDuck.Lib.OnesComplement
import JudgeDuck.Ducknet.ArpQueries
import JudgeDuck.Ducknet.Checksum
import JudgeDuck.Ducknet.Parse
import JudgeDuck.Ducknet.Veto
import JudgeDuck.Lib.Ring
import JudgeDuck.E1000.Model
import JudgeDuck.E1000.Transmit
import JudgeDuck.E1000.Receive
import JudgeDuck.Virtio.Model
import JudgeDuck.Virtio.Ownership
import JudgeDuck.Virtio.Receive
import JudgeDuck.Ducknet.Limits
import JudgeDuck.Memory.Entry
import JudgeDuck.Memory.Boot
import JudgeDuck.Memory.Allocator
import JudgeDuck.Memory.Tables
import JudgeDuck.Memory.Registered
import JudgeDuck.Memory.Budget
import JudgeDuck.Memory.Walk
import JudgeDuck.Memory.Lost
import JudgeDuck.Memory.Space
import JudgeDuck.Memory.Recursive
import JudgeDuck.Memory.Flags
import JudgeDuck.Memory.Script
import JudgeDuck.Memory.Booted
import JudgeDuck.Memory.Calls
import JudgeDuck.Elf.Model
import JudgeDuck.Elf.Layout
import JudgeDuck.Elf.Load
import JudgeDuck.Elf.Effect
import JudgeDuck.Elf.Image
import JudgeDuck.Elf.Tiny
import JudgeDuck.Elf.History
import JudgeDuck.Elf.Confined
import JudgeDuck.Elf.Noninterference
import JudgeDuck.Elf.Permissions
import JudgeDuck.Elf.Stack
import JudgeDuck.Elf.Reads
import JudgeDuck.Elf.Loaders
import JudgeDuck.Judger.Model
import JudgeDuck.Judger.Init
import JudgeDuck.Judger.Buffer
import JudgeDuck.Judger.Judge
import JudgeDuck.Judger.Session
import JudgeDuck.Judger.Reply
import JudgeDuck.UserLib.Model
import JudgeDuck.UserLib.Output
import JudgeDuck.UserLib.Memory
import JudgeDuck.Timer.Conversions
import JudgeDuck.Judger.Digest
import JudgeDuck.Trap.Espfix
import JudgeDuck.Multiboot.Model
import JudgeDuck.Multiboot.Mmap
import JudgeDuck.Lib.Descent
import JudgeDuck.Pci.Model
import JudgeDuck.Pci.Scan
import JudgeDuck.Network.Config
import JudgeDuck.Network.Tokens
import JudgeDuck.DuckServer.Text
import JudgeDuck.DuckServer.Model
import JudgeDuck.DuckServer.Requests
import JudgeDuck.Judger.Replay
import JudgeDuck.DuckServer.Protocol
import JudgeDuck.DuckServer.Sizes
import JudgeDuck.Ducknet.Station
import JudgeDuck.Ducknet.Forwards
import JudgeDuck.Ducknet.Link
import JudgeDuck.Ducknet.Exchange
import JudgeDuck.DuckServer.Wire
import JudgeDuck.DuckServer.MainLoop
import JudgeDuck.Elf.Outcome
import JudgeDuck.Lib.Splice
import JudgeDuck.Judger.Service
import JudgeDuck.Judger.Refinement
import JudgeDuck.Judger.Fairness
