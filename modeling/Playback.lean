import Playback.Board.Rig
import Playback.BoardList
import Playback.Container.Catalogue
import Playback.Executor.Shared
import Playback.Program.BringUp
import Playback.Program.Digest
import Playback.Program.Stimulus
import Playback.Program.Ticket
import Playback.Proofs.Board.SlotOrder
import Playback.Proofs.Board.Timers
import Playback.Proofs.Container.Decoding
import Playback.Proofs.Executor.Acceptance
import Playback.Proofs.Executor.Alignment
import Playback.Proofs.Executor.Fetching
import Playback.Proofs.Executor.Injection
import Playback.Proofs.Executor.PauseCounts
import Playback.Proofs.Executor.ReadBack
import Playback.Proofs.Executor.Repetition
import Playback.Proofs.Executor.Residency
import Playback.Proofs.Executor.Runs
import Playback.Proofs.Executor.Times
import Playback.Proofs.Executor.Waiting
import Playback.Proofs.Json.Stored
import Playback.Proofs.Program.Answers
import Playback.Proofs.Program.BringUp
import Playback.Proofs.Program.Digest
import Playback.Proofs.Program.Repetition
import Playback.Proofs.Program.Times
import Playback.Proofs.Recording.Contributions
import Playback.Proofs.Recording.Supported
import Playback.Proofs.Recording.Timers
import Playback.Proofs.Settings.History
import Playback.Proofs.Settings.Merging
import Playback.Proofs.Store.Directory
import Playback.Proofs.Text.BoardLists
import Playback.Proofs.Wire.Packets
import Playback.Proofs.Wire.Refusals
import Playback.Proofs.Wire.Responses
import Playback.Store.Directory
import Playback.Store.Memory
import Playback.Proofs.Text.Cut
