import RecordCodec.Main
import RecordCodec.Proofs.Codec.Appending
import RecordCodec.Proofs.Codec.Echo
import RecordCodec.Proofs.Codec.Packing
import RecordCodec.Proofs.Codec.Priority
import RecordCodec.Proofs.Codec.Reencoding
import RecordCodec.Proofs.Codec.Truncation
import RecordCodec.Proofs.Emit.Clashes
import RecordCodec.Proofs.Emit.Declaring
import RecordCodec.Proofs.Files.Restoration
import RecordCodec.Proofs.Planner.Balance
import RecordCodec.Proofs.Planner.Padding
import RecordCodec.Proofs.Planner.Workers
import RecordCodec.Proofs.Sample.Agreement
import RecordCodec.Proofs.Struct.TypeAgreement
import RecordCodec.Proofs.Table.ByteVectors
import RecordCodec.Proofs.Table.Draft
import RecordCodec.Proofs.Table.Simulation
import RecordCodec.Proofs.Text.Conversions
import RecordCodec.Proofs.Tool.Running
import RecordCodec.Text.Template
import RecordCodec.Tool.Journal
