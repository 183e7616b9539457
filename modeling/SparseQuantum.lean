import SparseQuantum.BasisState.Bits
import SparseQuantum.Dump.Snapshot
import SparseQuantum.Gate.Json
import SparseQuantum.Main
import SparseQuantum.Proofs.ControlledMatrices
import SparseQuantum.Proofs.DumpViews
import SparseQuantum.Proofs.FailingInstructions
import SparseQuantum.Proofs.JointOutcomes
import SparseQuantum.Proofs.KeptAmplitudes
import SparseQuantum.Proofs.LabelledRuns
import SparseQuantum.Proofs.LocalMeasurement
import SparseQuantum.Proofs.ModularAddition
import SparseQuantum.Proofs.NeverFaults
import SparseQuantum.Proofs.PartitionIndex
import SparseQuantum.Proofs.PluginBridge
import SparseQuantum.Proofs.Refinement
import SparseQuantum.Proofs.SlotAccounting
import SparseQuantum.Proofs.SupportLocality
import SparseQuantum.Proofs.UnobservableSlots
import SparseQuantum.Proofs.Circuits
import SparseQuantum.Proofs.UndoneCircuits
import SparseQuantum.Proofs.PreservedProbability
import SparseQuantum.Proofs.CallEffects
import SparseQuantum.Proofs.ArenaNumbering
import SparseQuantum.Proofs.IndependentCalls
import SparseQuantum.Proofs.WrittenNumerals
import SparseQuantum.Proofs.TokenTexts
import SparseQuantum.Proofs.WrittenTokens
import SparseQuantum.Proofs.WrittenTrees
import SparseQuantum.Proofs.WrittenValues
import SparseQuantum.Proofs.ArrangedMembers
import SparseQuantum.Proofs.ArrangedPrograms
import SparseQuantum.Proofs.ProgramTexts
import SparseQuantum.Proofs.FiniteNumbers
import SparseQuantum.Proofs.FiniteReaders
import SparseQuantum.Proofs.SnapshotTexts
import SparseQuantum.Proofs.CanonicalLayout
import SparseQuantum.Proofs.WellFormedPrograms
import SparseQuantum.Proofs.RenamedQubits
import SparseQuantum.Proofs.RenamedRuns
import SparseQuantum.Proofs.RenamedPrograms
import SparseQuantum.Proofs.ProjectiveMeasurement
import SparseQuantum.Proofs.MergedPartitions
import SparseQuantum.Proofs.CleanRelease
import SparseQuantum.Proofs.ParkedSlots
import SparseQuantum.Proofs.IntegerOperators
import SparseQuantum.Proofs.LosslessMoves
import SparseQuantum.Proofs.ExactAddition
import SparseQuantum.Proofs.GroupedAmplitudes
import SparseQuantum.Proofs.PackedOutcomes
import SparseQuantum.Proofs.IndependentShots
import SparseQuantum.Proofs.NormalizedPartitions
import SparseQuantum.Proofs.PhysicalSteps
import SparseQuantum.Proofs.FollowedRuns
import SparseQuantum.Proofs.LosslessRuns
import SparseQuantum.Proofs.Teleportation
import SparseQuantum.Proofs.AdderProgram
import SparseQuantum.Proofs.NumericOrder
import SparseQuantum.Proofs.DisjointProducts
