import ContainerSizing.Main
import ContainerSizing.Proofs.Configuration.Service
import ContainerSizing.Proofs.Engine.CapacityBased.Pods
import ContainerSizing.Proofs.Engine.DurationBased.Content
import ContainerSizing.Proofs.Engine.DurationBased.Coverage
import ContainerSizing.Proofs.Engine.DurationBased.Strain
import ContainerSizing.Proofs.Engine.Finiteness
import ContainerSizing.Proofs.Engine.Independence
import ContainerSizing.Proofs.Engine.LeastData
import ContainerSizing.Proofs.Engine.Shift
import ContainerSizing.Proofs.Report.Carry
import ContainerSizing.Proofs.Series.History
import ContainerSizing.Proofs.Service.Ledger
import ContainerSizing.Proofs.Statistics.Percentile
import ContainerSizing.Proofs.Window.Bounds
import ContainerSizing.Proofs.Window.Start
import ContainerSizing.Proofs.WireFormat
