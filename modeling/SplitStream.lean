import SplitStream.Codec.RunLength
import SplitStream.Main
import SplitStream.Proofs.Checksum.Detection
import SplitStream.Proofs.Checksum.Lists
import SplitStream.Proofs.Checksum.Standard
import SplitStream.Proofs.Command.Compression
import SplitStream.Proofs.Command.Copying
import SplitStream.Proofs.Command.Endings
import SplitStream.Proofs.Command.OwnIndexes
import SplitStream.Proofs.Command.Pipeline
import SplitStream.Proofs.Container.Cuts
import SplitStream.Proofs.Container.HeaderCorruption
import SplitStream.Proofs.Container.HeaderExchange
import SplitStream.Proofs.FrameIndex.Searches
import SplitStream.Proofs.FrameIndex.Slices
import SplitStream.Proofs.Raw.Reading
import SplitStream.Proofs.Raw.Truncation
import SplitStream.Proofs.Reader.Acceptance
import SplitStream.Proofs.Reader.Corruption
import SplitStream.Proofs.Reader.Leading
import SplitStream.Proofs.Reader.Serving
import SplitStream.Proofs.Reader.Truncation
import SplitStream.Proofs.Scan.Agreement
import SplitStream.Proofs.Scan.RawRounds
import SplitStream.Proofs.Scan.Truncation
import SplitStream.Proofs.Session.Capacity
import SplitStream.Proofs.Session.Corruption
import SplitStream.Proofs.Session.Divisions
import SplitStream.Proofs.Session.FailedFlushes
import SplitStream.Proofs.Session.FailingSinks
import SplitStream.Proofs.Session.Members
import SplitStream.Proofs.Session.Publication
import SplitStream.Proofs.Session.RawRoundTrip
import SplitStream.Proofs.Session.Rejection
import SplitStream.Proofs.Session.Resets
import SplitStream.Proofs.Session.RoundTrip
import SplitStream.Proofs.Session.Seams
import SplitStream.Proofs.Session.Suffixes
import SplitStream.Proofs.Session.Truncation
import SplitStream.Proofs.Source.Stability
import SplitStream.Proofs.Storage.Companions
import SplitStream.Proofs.Storage.ContainerFiles
import SplitStream.Proofs.Storage.FileWriters
import SplitStream.Proofs.Storage.IndexFiles
import SplitStream.Proofs.Storage.Places
import SplitStream.Proofs.Storage.Rebuilding
import SplitStream.Proofs.Storage.Receivers
import SplitStream.Proofs.Storage.Streams
import SplitStream.Proofs.Storage.Trees
import SplitStream.Proofs.Writer.Capturing
import SplitStream.Proofs.Writer.Closing
import SplitStream.Proofs.Writer.Conservation
import SplitStream.Proofs.Writer.InStep
import SplitStream.Proofs.Writer.Recording
import SplitStream.Sink
