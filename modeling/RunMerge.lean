import RunMerge.Dataset
import RunMerge.Main
import RunMerge.Proofs.Segments
import RunMerge.Proofs.SortedLists
import RunMerge.Proofs.Merging
import RunMerge.Proofs.Lengths
import RunMerge.Proofs.BottomUpPass
import RunMerge.Proofs.BottomUpSort
import RunMerge.Proofs.FixedMidPass
import RunMerge.Proofs.FixedMidFaults
import RunMerge.Proofs.PairedRuns
import RunMerge.Proofs.FixedMidSort
import RunMerge.Proofs.Endings
import RunMerge.Proofs.SortedOutput
import RunMerge.Proofs.Refusals
import RunMerge.Proofs.ScratchHistory
import RunMerge.Proofs.Stability
import RunMerge.Proofs.PassLog
import RunMerge.Proofs.AfterPasses
import RunMerge.Proofs.PrefixSort
import RunMerge.Proofs.AlreadySorted
import RunMerge.Proofs.ScratchTape
import RunMerge.Proofs.DemoOutput
import RunMerge.Proofs.DrawnIndex
import RunMerge.Proofs.NearlySorted
import RunMerge.Proofs.WordForWord
import RunMerge.Proofs.SeededGenerators
import RunMerge.Proofs.SettledDatasets
import RunMerge.Proofs.ReadBack
