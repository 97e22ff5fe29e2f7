import ExecCounts.Coverage.Aggregate
import ExecCounts.Indexed.Writer
import ExecCounts.Mapping.Reader
import ExecCounts.Mapping.Writer
import ExecCounts.Path
import ExecCounts.Profile.Detect
import ExecCounts.Profile.Summary
import ExecCounts.Raw.Writer
import ExecCounts.TextProfile.Writer
import ExecCounts.Tree
import ExecCounts.Value.Stats
import ExecCounts.Proofs.Ascending
import ExecCounts.Proofs.BestEffort
import ExecCounts.Proofs.Bounded
import ExecCounts.Proofs.Chunk
import ExecCounts.Proofs.Consumed
import ExecCounts.Proofs.Coverage.Active
import ExecCounts.Proofs.Coverage.BestEffort
import ExecCounts.Proofs.Coverage.EnoughCounters
import ExecCounts.Proofs.Coverage.Folds
import ExecCounts.Proofs.Coverage.Lines
import ExecCounts.Proofs.Coverage.Queries
import ExecCounts.Proofs.Coverage.Reference
import ExecCounts.Proofs.Coverage.Sweep
import ExecCounts.Proofs.Coverage.Unexecuted
import ExecCounts.Proofs.Coverage.Zeros
import ExecCounts.Proofs.Crc32
import ExecCounts.Proofs.Cut
import ExecCounts.Proofs.Damaged
import ExecCounts.Proofs.Deflate.Expansion
import ExecCounts.Proofs.Deflate.StoredBlocks
import ExecCounts.Proofs.Guarded
import ExecCounts.Proofs.Indexed.Checksum
import ExecCounts.Proofs.Indexed.Damaged
import ExecCounts.Proofs.Indexed.Declared
import ExecCounts.Proofs.Indexed.Guarded
import ExecCounts.Proofs.Indexed.Image
import ExecCounts.Proofs.Indexed.InBounds
import ExecCounts.Proofs.Indexed.Listed
import ExecCounts.Proofs.Indexed.Lookup
import ExecCounts.Proofs.Indexed.Opening
import ExecCounts.Proofs.Indexed.Rejected
import ExecCounts.Proofs.Indexed.RoundTrip
import ExecCounts.Proofs.Indexed.Truncation
import ExecCounts.Proofs.Indexed.Written
import ExecCounts.Proofs.Local
import ExecCounts.Proofs.Mapping.Concatenated
import ExecCounts.Proofs.Mapping.Damaged
import ExecCounts.Proofs.Mapping.Declared
import ExecCounts.Proofs.Mapping.ExprTable
import ExecCounts.Proofs.Mapping.Filenames
import ExecCounts.Proofs.Mapping.Function
import ExecCounts.Proofs.Mapping.OtherOrder
import ExecCounts.Proofs.Mapping.Refused
import ExecCounts.Proofs.Mapping.Regions
import ExecCounts.Proofs.Mapping.RoundTrip
import ExecCounts.Proofs.Mapping.Rounds
import ExecCounts.Proofs.Mapping.SharedTable
import ExecCounts.Proofs.Mapping.Truncation
import ExecCounts.Proofs.Mapping.Unfolding
import ExecCounts.Proofs.Mapping.WellFormed
import ExecCounts.Proofs.Mapping.Worth
import ExecCounts.Proofs.NamePool
import ExecCounts.Proofs.Operation
import ExecCounts.Proofs.Outcome
import ExecCounts.Proofs.Partition
import ExecCounts.Proofs.Parts
import ExecCounts.Proofs.Path
import ExecCounts.Proofs.Policy
import ExecCounts.Proofs.Profile.Conflict
import ExecCounts.Proofs.Profile.Content
import ExecCounts.Proofs.Profile.Damaged
import ExecCounts.Proofs.Profile.Detect
import ExecCounts.Proofs.Profile.Hottest
import ExecCounts.Proofs.Profile.MergeAll
import ExecCounts.Proofs.Profile.MergeRecords
import ExecCounts.Proofs.Profile.Peek
import ExecCounts.Proofs.Profile.RecordMerge
import ExecCounts.Proofs.Profile.Regroup
import ExecCounts.Proofs.Profile.Rejected
import ExecCounts.Proofs.Profile.Total
import ExecCounts.Proofs.Raw.AnyMachine
import ExecCounts.Proofs.Raw.Damaged
import ExecCounts.Proofs.Raw.Declared
import ExecCounts.Proofs.Raw.Dump
import ExecCounts.Proofs.Raw.Entries
import ExecCounts.Proofs.Raw.NameStarts
import ExecCounts.Proofs.Raw.Names
import ExecCounts.Proofs.Raw.Opening
import ExecCounts.Proofs.Raw.Records
import ExecCounts.Proofs.Raw.Rejected
import ExecCounts.Proofs.Raw.RoundTrip
import ExecCounts.Proofs.Raw.Sound
import ExecCounts.Proofs.Raw.Stored
import ExecCounts.Proofs.Raw.Truncation
import ExecCounts.Proofs.Raw.Written
import ExecCounts.Proofs.Reading
import ExecCounts.Proofs.Record
import ExecCounts.Proofs.Rejection
import ExecCounts.Proofs.Relocated
import ExecCounts.Proofs.Rounds
import ExecCounts.Proofs.Shortened
import ExecCounts.Proofs.Supply
import ExecCounts.Proofs.Taken
import ExecCounts.Proofs.Text.Layout
import ExecCounts.Proofs.Text.Line
import ExecCounts.Proofs.Text.Numeral
import ExecCounts.Proofs.Text.Spelling
import ExecCounts.Proofs.TextProfile.Blocks
import ExecCounts.Proofs.TextProfile.Grammar
import ExecCounts.Proofs.TextProfile.Rendered
import ExecCounts.Proofs.TextProfile.RoundTrip
import ExecCounts.Proofs.TextProfile.Rounds
import ExecCounts.Proofs.TextProfile.Scan
import ExecCounts.Proofs.TextProfile.Tokens
import ExecCounts.Proofs.TextProfile.Worth
import ExecCounts.Proofs.TextProfile.Written
import ExecCounts.Proofs.Utf8.Order
import ExecCounts.Proofs.Value.RoundTrip
import ExecCounts.Proofs.Value.Blob
import ExecCounts.Proofs.Value.Tally
import ExecCounts.Proofs.Version
import ExecCounts.Proofs.Worth
