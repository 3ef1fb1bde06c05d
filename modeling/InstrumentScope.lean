import InstrumentScope.Session
import InstrumentScope.UnitMap.Lemmas
import InstrumentScope.Proofs.Painting
import InstrumentScope.Proofs.Compilation
import InstrumentScope.Proofs.Registration
import InstrumentScope.Proofs.Decision
import InstrumentScope.Proofs.CanonicalMaps
import InstrumentScope.Proofs.Footprints
import InstrumentScope.Proofs.OpenBlock
import InstrumentScope.Proofs.TwoPhase
import InstrumentScope.Proofs.BlockSignals
import InstrumentScope.Proofs.ClosedBlocks
import InstrumentScope.Proofs.Agreement
import InstrumentScope.Proofs.Journeys
import InstrumentScope.Proofs.Locality
import InstrumentScope.Proofs.Complaints
import InstrumentScope.Proofs.Independence
import InstrumentScope.Proofs.RuleNumbers
import InstrumentScope.Proofs.ListedEntries
import InstrumentScope.Proofs.Selections
import InstrumentScope.Proofs.Causes
import InstrumentScope.Proofs.Warnings
import InstrumentScope.Proofs.PathMemory
import InstrumentScope.Proofs.SearchCounts
import InstrumentScope.Proofs.RuleOrder
import InstrumentScope.Proofs.Tightness
import InstrumentScope.Proofs.Filling
import InstrumentScope.Proofs.PlacedSpans
import InstrumentScope.Proofs.SelectedUnits
import InstrumentScope.Proofs.UncheckedSpans
import InstrumentScope.Proofs.Resolution
import InstrumentScope.Proofs.Unions
import InstrumentScope.Proofs.ExactFootprints
import InstrumentScope.Proofs.NativeAddresses
import InstrumentScope.Proofs.LaterRules
import InstrumentScope.Proofs.ImageBounds
import InstrumentScope.Proofs.SettingIsolation
