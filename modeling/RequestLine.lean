import RequestLine.Main
import RequestLine.Proofs.EntryPoints
import RequestLine.Proofs.Exchange.Calls
import RequestLine.Proofs.Exchange.Runs
import RequestLine.Proofs.CommandLine.PrintedRequest
import RequestLine.Proofs.Statement.Rebuilding
import RequestLine.Proofs.CommandLine.RunOptions
import RequestLine.Proofs.CommandLine.Batch
import RequestLine.Proofs.CommandLine.Statuses
import RequestLine.Proofs.Number.Spelling
import RequestLine.Proofs.Json.Strict
import RequestLine.Proofs.Text.UriComponent
import RequestLine.Proofs.Statement.Classification
import RequestLine.Proofs.Statement.MalformedQuery
import RequestLine.Proofs.Statement.NormalForm
import RequestLine.Proofs.Exchange.Bodies
import RequestLine.Proofs.Exchange.RepeatedMembers
import RequestLine.Proofs.Json.Flattening
import RequestLine.Proofs.CommandLine.PrintedYaml
import RequestLine.Proofs.JsonStatements
