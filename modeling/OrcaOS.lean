import OrcaOS.Foundation.Run
import OrcaOS.Foundation.SlotStack
import OrcaOS.Construction.Scheduling
import OrcaOS.Proof.ExecuteEffect
import OrcaOS.Proof.HaltEffect
import OrcaOS.Proof.AddressSpace
import OrcaOS.Proof.SessionRefinement
import OrcaOS.Proof.BootSequence
import OrcaOS.Proof.HaltUndoesExecute
import OrcaOS.Proof.HaltGuard
import OrcaOS.Proof.RunningRecords
import OrcaOS.Proof.LiveSlots
import OrcaOS.Proof.VideoAccess
import OrcaOS.Proof.FailedExecute
import OrcaOS.Proof.SequentialReads
import OrcaOS.Proof.DescriptorContract
import OrcaOS.Proof.SlotReuse
import OrcaOS.Proof.Screens
import OrcaOS.Proof.ScreenBounds
import OrcaOS.Proof.LineReading
import OrcaOS.Proof.StartupShells
import OrcaOS.Proof.TickResume
import OrcaOS.Proof.ClockRate
import OrcaOS.Proof.ClockIndependence
import OrcaOS.Proof.ImageRead
import OrcaOS.Proof.PagedRead
import OrcaOS.Proof.FileReadOrder
import OrcaOS.Proof.NameLookup
import OrcaOS.Proof.ExecutableCheck
import OrcaOS.Proof.ArgumentParsing
import OrcaOS.Proof.ArgumentPieces
import OrcaOS.Proof.DescriptorGuard
import OrcaOS.Proof.ProgramLoad
import OrcaOS.Proof.ImageLoads
import OrcaOS.Proof.DirectoryListing
import OrcaOS.Proof.TerminalBuffers
import OrcaOS.Proof.ReferenceTerminal
import OrcaOS.Proof.Echo
import OrcaOS.Proof.KernelPrinting
import OrcaOS.Proof.FunctionKeys
import OrcaOS.Proof.ShiftKeys
import OrcaOS.Proof.VidmapStore
import OrcaOS.Proof.EndOfInterrupt
import OrcaOS.Proof.NumberPrinting
import OrcaOS.Proof.FormatScan
import OrcaOS.Proof.ClockFrequency
import OrcaOS.Construction.Linkage
import OrcaOS.Foundation.Assembly
import OrcaOS.Foundation.InterruptFrame
import OrcaOS.Proof.InterruptLinkage
import OrcaOS.Proof.ProgramSwitch
import OrcaOS.Proof.KernelLinkage
