import ComponentKinds.Decoding.Tree
import ComponentKinds.Decoding.Text
import ComponentKinds.Family
import ComponentKinds.Json.Printed.Outline
import ComponentKinds.Proofs.Except
import ComponentKinds.Proofs.Binary64.Normal
import ComponentKinds.Proofs.Keyed.Ordered
import ComponentKinds.Proofs.Json.Canonical
import ComponentKinds.Proofs.Text.Delimited
import ComponentKinds.Proofs.Value.Forms
import ComponentKinds.Proofs.Value.Denotation
import ComponentKinds.Proofs.Schema.WellFormed
import ComponentKinds.Proofs.Schema.Attempts
import ComponentKinds.Proofs.Decoding.Grammar
import ComponentKinds.Proofs.Decoding.Once
import ComponentKinds.Proofs.Decoding.Agreement
import ComponentKinds.Proofs.Decoding.RoundTrip
import ComponentKinds.Proofs.Decoding.Acceptance
import ComponentKinds.Proofs.Value.Texts
import ComponentKinds.Proofs.Json.Suffixes
import ComponentKinds.Proofs.Registry.Reachable
import ComponentKinds.Proofs.Registry.Steps
import ComponentKinds.Proofs.Registry.History
import ComponentKinds.Proofs.Registry.Blocks
import ComponentKinds.Proofs.Registry.Declarers
import ComponentKinds.Proofs.Decoding.FaultOrder
import ComponentKinds.Proofs.Registry.Creation
import ComponentKinds.Proofs.Registry.Recreation
import ComponentKinds.Proofs.Registry.Extension
import ComponentKinds.Proofs.Config.Conversion
import ComponentKinds.Proofs.Registry.CreationFromJson
import ComponentKinds.Proofs.Config.Correspondence
import ComponentKinds.Proofs.Registry.Lookups
import ComponentKinds.Proofs.Registry.Scripts
import ComponentKinds.Proofs.Registry.Reads
import ComponentKinds.Proofs.Family.Log
import ComponentKinds.Proofs.Family.SingleInstall
import ComponentKinds.Proofs.Family.Reachable
import ComponentKinds.Proofs.Family.Order
import ComponentKinds.Proofs.Component.Texts
