import Consignment.Main
import Consignment.Template
import Consignment.Proofs.Dependency.Reachability
import Consignment.Proofs.Expansion.Merge
import Consignment.Proofs.Outcome
import Consignment.Proofs.Expansion.Parts
import Consignment.Proofs.Expansion.Membership
import Consignment.Proofs.Invoice.Codec
import Consignment.Proofs.Text.Utf8
import Consignment.Proofs.Yaml.Keys
import Consignment.Proofs.Yaml.Printable
import Consignment.Proofs.Disk.Changing
import Consignment.Proofs.Expansion.Contents
import Consignment.Proofs.Expansion.Exports
import Consignment.Proofs.Expansion.Groups
import Consignment.Proofs.Expansion.Integrity
import Consignment.Proofs.Staging.Fetching
import Consignment.Proofs.Value.Agreement
import Consignment.Proofs.Digest
import Consignment.Proofs.Staging.Contents
import Consignment.Proofs.Staging.Runs
import Consignment.Proofs.Expansion.Publishing
import Consignment.Proofs.Condition.Grammar
import Consignment.Proofs.Expansion.Failing
import Consignment.Proofs.Expansion.Selecting
import Consignment.Proofs.Disk.Relisting
import Consignment.Proofs.Glob.Relisting
import Consignment.Proofs.Packaging.Prefetching
import Consignment.Proofs.Packaging.Reproducing
import Consignment.Proofs.Packaging.Building
import Consignment.Proofs.Packaging.Providing
import Consignment.Proofs.Packaging.Selecting
import Consignment.Proofs.Invoice.RoundTrip
import Consignment.Proofs.Expansion.Rearranging
import Consignment.Proofs.Manifest.Schema
import Consignment.Proofs.Source.Refusing
import Consignment.Proofs.Expansion.Grouping
import Consignment.Proofs.Condition.Stuck
import Consignment.Proofs.Condition.Problem
import Consignment.Proofs.Staging.Failing
import Consignment.Proofs.Invoice.Settling
import Consignment.Proofs.Staging.Keeping
import Consignment.Proofs.Expansion.Clashing
import Consignment.Proofs.Expansion.Shadowing
import Consignment.Proofs.Manifest.Refusing
import Consignment.Proofs.Staging.Refusing
import Consignment.Proofs.Invoice.Heading
import Consignment.Proofs.Document.Reloading
import Consignment.Proofs.Version
import Consignment.Proofs.Url.Addressing
import Consignment.Proofs.Expansion.Leaving
import Consignment.Proofs.Staging.Commuting
import Consignment.Proofs.PackageId
