import Protogen.Json.Scalar
import Protogen.Json.Parser
import Protogen.Text.Casing
import Protogen.Wire.Writer
import Protogen.Codec.Base64
import Protogen.Time.Moment
import Protogen.Codec.Message
import Protogen.Codec.JsonMessage
import Protogen.Shop.Widget
import Protogen.Schema.Parse
import Protogen.Schema.Verify
import Protogen.Schema.Inspect
import Protogen.Target.Batch
import Protogen.Code.Line
import Protogen.Code.Writer
import Protogen.Code.Helper
import Protogen.Text.Replace
import Protogen.Code.Struct
import Protogen.Code.Enumeration
import Protogen.Target.Enumeration
import Protogen.Code.Binary
import Protogen.Code.Json
import Protogen.Code.Partial
import Protogen.Code.Service
import Protogen.Code.File
import Protogen.Code.Routines
import Protogen.Target.Service
import Protogen.Code.ModuleIndex
import Protogen.Reach
import Protogen.Compile.Run
import Protogen.Wire.Record
import Protogen.Descriptor.Layout
import Protogen.Descriptor.Tree
import Protogen.Descriptor.Wire
import Protogen.Plugin.Exchange
import Protogen.Cli.Disk
import Protogen.Main
import Protogen.Rpc.Status
import Protogen.Rpc.FanOut
import Protogen.Rpc.Loader.Basic
import Protogen.Rpc.Loader.Rounds
import Protogen.Rpc.Retry.Policy
import Protogen.Rpc.Retry.Stream
import Protogen.Rpc.Retry.Run
import Protogen.Rpc.Channel
import Protogen.Rpc.Script
import Protogen.Shop.Service
import Protogen.Proofs.Shop.RoundTrip
import Protogen.Proofs.Shop.Stability
import Protogen.Proofs.Shop.WireTypes
import Protogen.Proofs.Shop.Children
import Protogen.Proofs.Shop.SharedWire
import Protogen.Proofs.WellKnown.Timestamp
import Protogen.Proofs.Codec.Base64
import Protogen.Proofs.Codec.JsonMessage
import Protogen.Proofs.Shop.Generated
import Protogen.Proofs.Shop.JsonRoundTrip
import Protogen.Proofs.Code.Calls
import Protogen.Proofs.Code.Routines
import Protogen.Proofs.Compile.FileText
import Protogen.Proofs.Compile.Generation
import Protogen.Proofs.Compile.TypeNames
import Protogen.Proofs.Target.Enumeration
import Protogen.Proofs.Compile.MemberNames
import Protogen.Proofs.Compile.Order
import Protogen.Proofs.Rpc.Retry
import Protogen.Proofs.Rpc.Loader
import Protogen.Proofs.Shop.Accessor
import Protogen.Proofs.Compile.Records
import Protogen.Proofs.Wire.Acceptance
import Protogen.Proofs.Shop.ExclusiveLabel
import Protogen.Proofs.Shop.Dated
import Protogen.Proofs.Wire.Announced
import Protogen.Proofs.Wire.InPlace
import Protogen.Proofs.Codec.Field
import Protogen.Proofs.Shop.Operations
import Protogen.Proofs.Wire.Groups
import Protogen.Proofs.Shop.Truncation
import Protogen.Proofs.Shop.Nesting
import Protogen.Proofs.Shop.Chunks
import Protogen.Proofs.Number.DoubleValue
import Protogen.Proofs.Number.Numeral
import Protogen.Proofs.Codec.Splitting
import Protogen.Proofs.Json.Integer
import Protogen.Proofs.WellKnown.Conversions
import Protogen.Proofs.Wire.Grammar
import Protogen.Proofs.Codec.Reordering
import Protogen.Proofs.Shop.LastLabel
import Protogen.Proofs.Shop.Reordering
import Protogen.Proofs.Shop.JsonStrip
import Protogen.Proofs.Rpc.ServerStream
import Protogen.Proofs.Schema.Consistent
import Protogen.Proofs.Compile.Boxing
import Protogen.Proofs.Compile.Emission
import Protogen.Proofs.Code.Siblings
import Protogen.Proofs.Compile.OutputNames
import Protogen.Proofs.Compile.SchemaStrings
import Protogen.Proofs.Codec.Base64Forms
import Protogen.Proofs.Compile.OptionTexts
import Protogen.Proofs.Compile.Options
import Protogen.Proofs.Target.Places
import Protogen.Proofs.Target.Batches
import Protogen.Proofs.Compile.Helpers
import Protogen.Proofs.Compile.Balance
import Protogen.Proofs.Naming.Snake
